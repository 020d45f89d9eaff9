import JanetEmbedding.Config.Loading
import JanetEmbedding.Proofs.ErrorKinds
import JanetEmbedding.Proofs.Rounding
import Mathlib.Data.Nat.Digits.Defs

/-!
# When a configuration is neither loaded nor at fault

Loading gives a configuration or a **fault** of it, which the caller is told in words. This holds for every
environment, but not for every file: other errors escape from five places, the name of the file, its bytes,
the reader of YAML, a document that is nested too deeply, and the value of a setting that is too large to be
counted or shown. What follows says exactly which files these are.

## Conventions

* The reader of YAML is any that may be given. The readers of JSON and TOML are those that are here: what they
  refuse is a fault of the file, unless it is nested too deeply.
* A value is shown by its literal, which takes room. So a value that is nested too deeply is not even refused.

## Main definitions

* `Datum.HoldsLong`: an integer with too many digits stands somewhere in a value.
* `Datum.literalCalls`: the calls that the literal of a value needs.
* `Config.Unusable`: an entry that is neither taken nor refused as a fault.
* `Config.Contained`: no error escapes from a file.

## Main results

* `Datum.shows_iff`: a value is shown unless it holds too long an integer or is nested too deeply.
* `Document.read_isValue_iff`: a text is refused with a value that is not allowed, unless as YAML or as nested
  too deeply.
* `Config.ofEntry_isFault_iff`: an entry is taken or at fault unless it is unusable.
* `Config.load_ok_or_fault_iff`: a configuration is loaded or at fault unless an error escapes from its
  file.
-/

namespace JanetEmbedding

/-! ### Integers -/

namespace Double

/-- An integer beyond every double, by its logarithm. -/
theorem ofInt?_eq_none {n : Int} (hn : 1025 ≤ n.natAbs.log2) : ofInt? n = none := by
  have hne : n.natAbs ≠ 0 := by
    intro hzero
    rw [hzero, show Nat.log2 0 = 0 from by decide] at hn
    omega
  have hfloor : 1024 ≤ floorLog2 n.natAbs 1 := by
    have hone : Nat.log2 1 = 0 := by decide
    simp only [floorLog2]
    split <;> omega
  have hparts : ∀ (q : Nat) (e : Int), 971 < e →
      ofParts (decide (n < 0)) q e = .infinite (decide (n < 0)) := by
    intro q e he
    exact dif_neg fun h => absurd h.2.2.1 (by omega)
  have hinfinite : ofRatio (decide (n < 0)) n.natAbs 1 = .infinite (decide (n < 0)) := by
    simp only [ofRatio, hne, if_false]
    split
    · exact hparts _ _ (by omega)
    · exact hparts _ _ (by omega)
  rw [ofInt?, hinfinite]

/-- An integer that is too long to be written is too large to be a double. -/
theorem ofInt?_of_integerText {n : Int} (h : integerText n = none) : ofInt? n = none := by
  refine ofInt?_eq_none ?_
  by_contra hlog
  have hlt : n.natAbs < 10 ^ maxIntegerDigits := by
    calc n.natAbs < 2 ^ (n.natAbs.log2 + 1) := Nat.lt_log2_self
      _ ≤ 2 ^ (3 * maxIntegerDigits) :=
        Nat.pow_le_pow_right (by decide) (by simp only [maxIntegerDigits]; omega)
      _ ≤ 10 ^ maxIntegerDigits := (pow_ten_bounds maxIntegerDigits).1
  have hlength : (decimalDigits n.natAbs).length ≤ maxIntegerDigits :=
    Nat.toDigits_length 10 n.natAbs maxIntegerDigits (by decide) hlt
  simp only [integerText, if_neg (Nat.not_lt.mpr hlength), reduceCtorEq] at h

end Double

/-! ### Values that cannot be shown -/

namespace Datum

/-- A value has a literal where there is room for so many calls. -/
def Shows (room : Nat) (x : Datum) : Prop := ∃ s, x.literal room = .ok s

mutual

/-- The calls that the **literal** of a value needs. -/
def literalCalls : Datum → Nat
  | list items => 1 + literalsCalls items
  | tuple items => 1 + literalsCalls items
  | dict entries => 1 + entryLiteralsCalls entries
  | set items _ => 2 + literalsCalls items
  | _ => 0

/-- The calls that the literals of a sequence need. -/
def literalsCalls : List Datum → Nat
  | [] => 0
  | x :: xs => max (literalCalls x) (literalsCalls xs)

/-- The calls that the literals of the entries of a dictionary need. -/
def entryLiteralsCalls : List (Datum × Datum) → Nat
  | [] => 0
  | (k, v) :: es => max (max (literalCalls k) (literalCalls v)) (entryLiteralsCalls es)

end

/-- An integer with too many digits to be written stands somewhere in a value. -/
inductive HoldsLong : Datum → Prop where
  | int {n : Int} (h : Double.integerText n = none) : HoldsLong (.int n)
  | list {items : List Datum} {x : Datum} (hx : x ∈ items) (h : HoldsLong x) : HoldsLong (.list items)
  | tuple {items : List Datum} {x : Datum} (hx : x ∈ items) (h : HoldsLong x) : HoldsLong (.tuple items)
  | set {items : List Datum} {place : Option Nat} {x : Datum} (hx : x ∈ items) (h : HoldsLong x) :
      HoldsLong (.set items place)
  | key {entries : List (Datum × Datum)} {e : Datum × Datum} (hx : e ∈ entries) (h : HoldsLong e.1) :
      HoldsLong (.dict entries)
  | value {entries : List (Datum × Datum)} {e : Datum × Datum} (hx : e ∈ entries) (h : HoldsLong e.2) :
      HoldsLong (.dict entries)

/-- A value **cannot be shown**: it holds an integer that is too long, or is nested too deeply. -/
inductive Unshown (x : Datum) : Prop where
  | long (h : x.HoldsLong)
  | deep (h : Nesting.limit < x.literalCalls)

variable {room : Nat} {items : List Datum} {entries : List (Datum × Datum)}

theorem literalsCalls_le_iff : literalsCalls items ≤ room ↔ ∀ x ∈ items, x.literalCalls ≤ room := by
  induction items with
  | nil => simp [literalsCalls]
  | cons x xs ih => rw [literalsCalls, max_le_iff, ih, List.forall_mem_cons]

theorem entryLiteralsCalls_le_iff : entryLiteralsCalls entries ≤ room ↔
    ∀ e ∈ entries, e.1.literalCalls ≤ room ∧ e.2.literalCalls ≤ room := by
  induction entries with
  | nil => simp [entryLiteralsCalls]
  | cons e es ih => rw [entryLiteralsCalls, max_le_iff, max_le_iff, ih, List.forall_mem_cons]

theorem exists_literals_iff {xs : List Datum} :
    (∃ ss, literals room xs = .ok ss) ↔ ∀ x ∈ xs, x.Shows room := by
  induction xs with
  | nil => simp [literals]
  | cons x xs ih =>
    simp only [literals, exists_bind_ok_iff, exists_pure_ok, and_true]
    rw [exists_and_right, ih, List.forall_mem_cons, Shows]

theorem exists_entryLiterals_iff {es : List (Datum × Datum)} :
    (∃ ss, entryLiterals room es = .ok ss) ↔ ∀ e ∈ es, e.1.Shows room ∧ e.2.Shows room := by
  induction es with
  | nil => simp [entryLiterals]
  | cons e es ih =>
    simp only [entryLiterals, exists_bind_ok_iff, exists_pure_ok, and_true]
    rw [exists_and_right, exists_and_right, ih, List.forall_mem_cons, Shows, Shows, and_assoc]

/-- Inside of a collection there is a result if there is room and one is come to. -/
theorem exists_within_iff {α : Type} {calls : Nat} {inside : Nat → Except DataError α} :
    (∃ a, Nesting.within .tooDeep calls room inside = .ok a) ↔
      calls ≤ room ∧ ∃ a, inside (room - calls) = .ok a := by
  simp only [Nesting.within_eq_ok_iff, exists_and_left]

theorem shows_list : (list items).Shows room ↔ 1 ≤ room ∧ ∀ x ∈ items, x.Shows (room - 1) := by
  rw [← exists_literals_iff]
  simp only [Shows, literal, exists_within_iff, exists_bind_ok_iff, exists_pure_ok, and_true]

theorem shows_tuple : (tuple items).Shows room ↔ 1 ≤ room ∧ ∀ x ∈ items, x.Shows (room - 1) := by
  rw [← exists_literals_iff]
  simp only [Shows, literal, exists_within_iff, exists_bind_ok_iff]
  refine and_congr_right fun _ => exists_congr fun parts => and_iff_left ?_
  split
  · exact exists_pure_ok _
  · exact exists_pure_ok _

theorem shows_set {place : Option Nat} :
    (set items place).Shows room ↔ 2 ≤ room ∧ ∀ x ∈ items, x.Shows (room - 2) := by
  rw [← exists_literals_iff]
  simp only [Shows, literal, exists_within_iff, exists_bind_ok_iff]
  refine and_congr_right fun _ => exists_congr fun parts => and_iff_left ?_
  split
  · exact exists_pure_ok _
  · exact exists_pure_ok _

theorem shows_dict : (dict entries).Shows room ↔
    1 ≤ room ∧ ∀ e ∈ entries, e.1.Shows (room - 1) ∧ e.2.Shows (room - 1) := by
  rw [← exists_entryLiterals_iff]
  simp only [Shows, literal, exists_within_iff, exists_bind_ok_iff, exists_pure_ok, and_true]

theorem HoldsLong.not_shows {x : Datum} (h : x.HoldsLong) : ¬ x.Shows room := by
  induction h generalizing room with
  | int h => exact fun hs => exists_literal_int_iff.mp hs h
  | list hx _ ih => exact fun hs => ih ((shows_list.mp hs).2 _ hx)
  | tuple hx _ ih => exact fun hs => ih ((shows_tuple.mp hs).2 _ hx)
  | set hx _ ih => exact fun hs => ih ((shows_set.mp hs).2 _ hx)
  | key hx _ ih => exact fun hs => ih ((shows_dict.mp hs).2 _ hx).1
  | value hx _ ih => exact fun hs => ih ((shows_dict.mp hs).2 _ hx).2

/-- What is inside of a collection shows where there is room for it. -/
theorem forall_shows_iff {calls : Nat} (hlong : ∀ x ∈ items, ¬ x.HoldsLong)
    (h : ∀ x ∈ items, ¬ x.HoldsLong → (x.Shows (room - calls) ↔ x.literalCalls ≤ room - calls)) :
    (calls ≤ room ∧ ∀ x ∈ items, x.Shows (room - calls)) ↔ calls + literalsCalls items ≤ room := by
  have hitems : (∀ x ∈ items, x.Shows (room - calls)) ↔ literalsCalls items ≤ room - calls := by
    rw [literalsCalls_le_iff]
    exact forall₂_congr fun x hx => h x hx (hlong x hx)
  rw [hitems]
  omega

/-- A value that holds no integer that is too long is shown where there is room, by recursion on the value. -/
theorem shows_iff_of_not_holdsLong : ∀ {room : Nat} {x : Datum}, ¬ x.HoldsLong →
    (x.Shows room ↔ x.literalCalls ≤ room)
  | _, .null, _ | _, .bool _, _ | _, .float _, _ | _, .text _, _ | _, .bytes _, _ | _, .date _ _, _
  | _, .moment _ _, _ | _, .time _, _ | _, .itself .list, _ | _, .itself .dict, _ =>
      iff_of_true ⟨_, rfl⟩ (Nat.zero_le _)
  | _, .int _, h => iff_of_true (exists_literal_int_iff.mpr fun hn => h (.int hn)) (Nat.zero_le _)
  | _, .list _, h => shows_list.trans (forall_shows_iff (fun _ hx hlong => h (.list hx hlong))
      fun _ hx => shows_iff_of_not_holdsLong)
  | _, .tuple _, h => shows_tuple.trans (forall_shows_iff (fun _ hx hlong => h (.tuple hx hlong))
      fun _ hx => shows_iff_of_not_holdsLong)
  | _, .set _ _, h => shows_set.trans (forall_shows_iff (fun _ hx hlong => h (.set hx hlong))
      fun _ hx => shows_iff_of_not_holdsLong)
  | room, .dict entries, h => by
      have hentries : (∀ e ∈ entries, e.1.Shows (room - 1) ∧ e.2.Shows (room - 1)) ↔
          entryLiteralsCalls entries ≤ room - 1 := by
        rw [entryLiteralsCalls_le_iff]
        exact forall₂_congr fun (_, _) hx => and_congr
          (shows_iff_of_not_holdsLong fun hlong => h (.key hx hlong))
          (shows_iff_of_not_holdsLong fun hlong => h (.value hx hlong))
      rw [shows_dict, hentries, literalCalls]
      omega
termination_by _ x => sizeOf x
decreasing_by
  all_goals
    have hlt := List.sizeOf_lt_of_mem hx
    simp only [list.sizeOf_spec, tuple.sizeOf_spec, set.sizeOf_spec, dict.sizeOf_spec,
      Prod.mk.sizeOf_spec] at hlt ⊢
    omega

/-- **A value is shown unless it holds an integer that is too long, or there is no room for it.** -/
theorem shows_iff {x : Datum} : x.Shows room ↔ ¬ x.HoldsLong ∧ x.literalCalls ≤ room := by
  constructor
  · intro hs
    have hlong : ¬ x.HoldsLong := fun h => h.not_shows hs
    exact ⟨hlong, (shows_iff_of_not_holdsLong hlong).mp hs⟩
  · rintro ⟨hlong, hcalls⟩
    exact (shows_iff_of_not_holdsLong hlong).mpr hcalls

theorem shows_limit_iff {x : Datum} : x.Shows Nesting.limit ↔ ¬ x.Unshown := by
  rw [shows_iff]
  constructor
  · rintro ⟨hlong, hcalls⟩ (h | h)
    · exact hlong h
    · omega
  · exact fun h => ⟨fun hlong => h (.long hlong), Nat.not_lt.mp fun hdeep => h (.deep hdeep)⟩

/-- The display of a value needs its literal, unless it is a text or stands for a time. -/
theorem exists_display_iff {x : Datum} : (∃ t, x.display room = .ok t) ↔ x.Shows room := by
  cases x with
  | text s => exact iff_of_true ⟨_, rfl⟩ ⟨_, rfl⟩
  | date d place => exact iff_of_true ⟨_, rfl⟩ ⟨_, rfl⟩
  | moment m place => exact iff_of_true ⟨_, rfl⟩ ⟨_, rfl⟩
  | time t => exact iff_of_true ⟨_, rfl⟩ ⟨_, rfl⟩
  | _ => simp only [display, exists_bind_ok_iff, exists_pure_ok, and_true, Shows]

end Datum

/-! ### Documents -/

namespace Document

variable {yaml : Yaml.Loader}

/-- A text is read as YAML: nothing else is known about it, or it should be JSON and is none. -/
inductive ReadsYaml (name t : Text) : Prop where
  | yaml (h : (Format.detect (some name) (some t)).getD .yaml = .yaml)
  | json (h : Format.detect (some name) (some t) = some .json)
      (hread : Json.read Nesting.limit t = .error (.malformed .json))

/-- A text is **nested too deeply** for JSON or TOML. -/
inductive TooDeep (name t : Text) : Prop where
  | json (h : Format.detect (some name) (some t) = some .json)
      (hread : Json.read Nesting.limit t = .error .tooDeep)
  | toml (h : Format.detect (some name) (some t) = some .toml)
      (hread : Toml.read Nesting.limit t = .error .tooDeep)

/-- **A text is refused with a value that is not allowed**, unless it is nested too deeply, or read as YAML
and refused there with another error. -/
theorem read_isValue_iff {name t : Text} :
    FailsOnly DataError.IsValue (read Nesting.limit none (some name) t yaml) ↔
      ¬ TooDeep name t ∧ (ReadsYaml name t → FailsOnly DataError.IsValue (readYaml t yaml)) := by
  cases hformat : (Format.detect (some name) (some t)).getD .yaml with
  | yaml =>
    have hread : read Nesting.limit none (some name) t yaml = readYaml t yaml :=
      congrArg (readIn Nesting.limit · t yaml) hformat
    have hshallow : ¬ TooDeep name t := by
      rintro (⟨h, -⟩ | ⟨h, -⟩) <;> rw [h] at hformat <;> cases hformat
    rw [hread]
    exact ⟨fun h => ⟨hshallow, fun _ => h⟩, fun h => h.2 (.yaml hformat)⟩
  | toml =>
    have hdetect : Format.detect (some name) (some t) = some .toml := by
      cases hd : Format.detect (some name) (some t) with
      | none => rw [hd] at hformat; cases hformat
      | some f => rw [hd] at hformat; exact congrArg some hformat
    have hread : read Nesting.limit none (some name) t yaml = (Toml.read Nesting.limit t).map .plain :=
      congrArg (readIn Nesting.limit · t yaml) hformat
    have hno : ¬ ReadsYaml name t := by
      rintro (h | ⟨h, -⟩)
      · rw [hformat] at h
        cases h
      · rw [h] at hformat
        cases hformat
    rw [hread, failsOnly_map]
    constructor
    · intro h
      refine ⟨?_, fun hyaml => absurd hyaml hno⟩
      rintro (⟨hjson, -⟩ | ⟨-, htoml⟩)
      · rw [hjson] at hdetect
        cases hdetect
      · exact nomatch h _ htoml
    · rintro ⟨hdeep, -⟩ e he
      cases Toml.failsOnly_read _ t e he with
      | value hvalue => exact hvalue
      | tooDeep htoml => exact absurd (.toml hdetect (htoml ▸ he)) hdeep
  | json =>
    have hread : read Nesting.limit none (some name) t yaml = readIn Nesting.limit .json t yaml :=
      congrArg (readIn Nesting.limit · t yaml) hformat
    have hdetect : Format.detect (some name) (some t) = some .json := by
      cases hd : Format.detect (some name) (some t) with
      | none => rw [hd] at hformat; cases hformat
      | some f => rw [hd] at hformat; exact congrArg some hformat
    -- a text that is JSON, or whose JSON is refused for something else, is not read as YAML
    have hno (hjson : Json.read Nesting.limit t ≠ .error (.malformed .json)) : ¬ ReadsYaml name t := by
      intro h
      cases h with
      | yaml h => rw [hformat] at h; cases h
      | json _ h => exact hjson h
    have hshallow (hjson : Json.read Nesting.limit t ≠ .error .tooDeep) : ¬ TooDeep name t := by
      rintro (⟨-, h⟩ | ⟨h, -⟩)
      · exact hjson h
      · rw [h] at hdetect
        cases hdetect
    rw [hread, readIn]
    cases hjson : Json.read Nesting.limit t with
    | ok j =>
      exact iff_of_true (failsOnly_ok _)
        ⟨hshallow (by rw [hjson]; nofun), fun h => absurd h (hno (by rw [hjson]; nofun))⟩
    | error e =>
      cases Json.failsOnly_read _ t e hjson with
      | malformed =>
        rw [failsOnly_mapError]
        constructor
        · intro h
          exact ⟨hshallow (by rw [hjson]; nofun), fun _ => h.mono fun e he => by cases e <;> exact he⟩
        · intro h
          exact (h.2 (.json hdetect hjson)).mono fun e he => by cases e <;> exact he
      | tooManyDigits digits =>
        exact iff_of_true (failsOnly_error.mpr rfl)
          ⟨hshallow (by rw [hjson]; nofun), fun h => absurd h (hno (by rw [hjson]; nofun))⟩
      | tooDeep =>
        exact iff_of_false (fun h => nomatch failsOnly_error.mp h) fun h => h.1 (.json hdetect hjson)

end Document

namespace Config

/-! ### Settings -/

/-- A configuration is not loaded for a fault of it. -/
def Failure.IsFault (e : Failure) : Prop := ∃ f, e = .fault f

@[simp] theorem isFault_fault (f : Fault) : (Failure.fault f).IsFault := ⟨f, rfl⟩

@[simp] theorem not_isFault_data (e : DataError) : ¬ (Failure.data e).IsFault := nofun

theorem failsOnly_ofData_iff {α : Type} {x : Except DataError α} :
    FailsOnly Failure.IsFault (ofData x) ↔ ∃ a, x = .ok a := by
  cases x with
  | ok a => exact iff_of_true (failsOnly_ok a) ⟨a, rfl⟩
  | error e => exact iff_of_false (fun h => nomatch failsOnly_error.mp h) nofun

/-- A value is refused unless it cannot be shown. -/
theorem failsOnly_refuse_iff {α : Type} {f : String → Fault} {x : Datum} :
    FailsOnly Failure.IsFault (refuse f x : Except Failure α) ↔ x.Shows Nesting.limit := by
  simp only [refuse, failsOnly_bind_iff, failsOnly_ofData_iff, failsOnly_throw, isFault_fault,
    implies_true, and_true, Datum.Shows]

theorem coerceTruth_isFault_iff {name : String} {x : Datum} :
    FailsOnly Failure.IsFault (coerceTruth name x) ↔ x.Shows Nesting.limit := by
  cases x with
  | null => exact iff_of_true (failsOnly_ok _) ⟨_, rfl⟩
  | bool b => exact iff_of_true (failsOnly_ok _) ⟨_, rfl⟩
  | _ =>
    simp only [coerceTruth, failsOnly_bind_iff, failsOnly_ofData_iff, Datum.exists_display_iff]
    refine and_iff_left_of_imp fun hshows word _ => ?_
    split_ifs
    · exact failsOnly_pure _
    · exact failsOnly_pure _
    · exact failsOnly_pure _
    · exact failsOnly_refuse_iff.mpr hshows

theorem coerceText_isFault_iff {name : String} {x : Datum} :
    FailsOnly Failure.IsFault (coerceText name x) ↔ x.Shows Nesting.limit := by
  cases x with
  | null => exact iff_of_true (failsOnly_ok _) ⟨_, rfl⟩
  | text t => exact iff_of_true (failsOnly_ok _) ⟨_, rfl⟩
  | _ => exact failsOnly_refuse_iff

/-- A value is no number at all, or a number that can be shown, or an integer beyond every number. -/
theorem asDouble?_cases (x : Datum) :
    (∃ n, x = .int n ∧ Double.ofInt? n = none ∧ asDouble? x = .error .integerBeyondFloat) ∨
      ∃ d, asDouble? x = .ok d ∧ (d ≠ none → x.Shows Nesting.limit) ∧
        ∀ n, x = .int n → Double.ofInt? n ≠ none := by
  cases x with
  | int n =>
    cases hn : Double.ofInt? n with
    | none => exact .inl ⟨n, rfl, hn, by simp only [asDouble?, hn]⟩
    | some d =>
      have hshows : (Datum.int n).Shows Nesting.limit :=
        Datum.exists_literal_int_iff.mpr fun h => by rw [Double.ofInt?_of_integerText h] at hn; cases hn
      refine .inr ⟨some d, by simp only [asDouble?, hn], fun _ => hshows, ?_⟩
      rintro _ ⟨⟩
      rw [hn]
      exact Option.some_ne_none d
  | bool b => exact .inr ⟨_, rfl, fun _ => ⟨_, rfl⟩, nofun⟩
  | float d => exact .inr ⟨_, rfl, fun _ => ⟨_, rfl⟩, nofun⟩
  | text t => exact .inr ⟨_, rfl, fun _ => ⟨_, rfl⟩, nofun⟩
  | bytes bs => exact .inr ⟨_, rfl, fun _ => ⟨_, rfl⟩, nofun⟩
  | _ => exact .inr ⟨none, rfl, fun h => absurd rfl h, nofun⟩

theorem coerceSeconds_isFault_iff {name : String} {x : Datum} :
    FailsOnly Failure.IsFault (coerceSeconds name x) ↔
      x.Shows Nesting.limit ∧ ∀ n, x = .int n → Double.ofInt? n ≠ none := by
  rw [coerceSeconds.eq_def]
  split
  · exact iff_of_true (failsOnly_ok _) ⟨⟨_, rfl⟩, nofun⟩
  · exact iff_of_true (failsOnly_ok _) ⟨⟨_, rfl⟩, nofun⟩
  · rw [failsOnly_bind_iff, failsOnly_ofData_iff]
    obtain ⟨n, rfl, hn, hbeyond⟩ | ⟨d, hd, hshows, hint⟩ := asDouble?_cases x
    · rw [hbeyond]
      refine iff_of_false ?_ fun h => h.2 n rfl hn
      rintro ⟨⟨d, hd⟩, -⟩
      cases hd
    · rw [hd]
      constructor
      · rintro ⟨-, h⟩
        refine ⟨?_, hint⟩
        cases d with
        | none => exact failsOnly_refuse_iff.mp (h none rfl)
        | some t => exact hshows (Option.some_ne_none t)
      · rintro ⟨hs, -⟩
        refine ⟨⟨d, rfl⟩, ?_⟩
        rintro _ ⟨⟩
        cases d with
        | none => exact failsOnly_refuse_iff.mpr hs
        | some t =>
          dsimp only
          split
          · exact failsOnly_refuse_iff.mpr hs
          · exact failsOnly_pure _

/-- A value that a setting takes or refuses as a fault. -/
theorem coerce_isFault_iff {s : Setting} {name : String} {x : Datum} :
    FailsOnly Failure.IsFault (coerce s name x) ↔
      x.Shows Nesting.limit ∧ ∀ n, s = .timeout → x = .int n → Double.ofInt? n ≠ none := by
  cases s with
  | library => simp [coerce, coerceText_isFault_iff]
  | nanbox => simp [coerce, coerceTruth_isFault_iff]
  | timeout => simp [coerce, coerceSeconds_isFault_iff]
  | sourcePath => simp [coerce, coerceText_isFault_iff]

/-! ### Entries -/

/-- A key is the name of a setting. -/
inductive Names (k : Datum) (s : Setting) : Prop where
  | intro {name : Text} (hname : k.display Nesting.limit = .ok name)
      (hsetting : (normalName name).toString?.bind Setting.ofName? = some s)

/-- An entry is **unusable** if it is neither taken nor refused as a fault: its key or its value cannot be
shown, or its value is a number of seconds beyond every number. -/
inductive Unusable : Datum → Datum → Prop where
  | key {k v : Datum} (h : k.Unshown) : Unusable k v
  | value {k v : Datum} {s : Setting} (hk : Names k s) (h : v.Unshown) : Unusable k v
  | seconds {k : Datum} {n : Int} (hk : Names k .timeout) (h : Double.ofInt? n = none) :
      Unusable k (.int n)

/-- **An entry is taken or refused as a fault unless it is unusable.** -/
theorem ofEntry_isFault_iff {k v : Datum} :
    FailsOnly Failure.IsFault (ofEntry k v) ↔ ¬ Unusable k v := by
  simp only [ofEntry, failsOnly_bind_iff, failsOnly_ofData_iff, Datum.exists_display_iff]
  constructor
  · rintro ⟨hk, h⟩ hun
    cases hun with
    | key hunshown => exact Datum.shows_limit_iff.mp hk hunshown
    | value hname hunshown =>
      obtain ⟨hname, hsetting⟩ := hname
      have hcoerce := h _ (congrArg ofData hname)
      rw [hsetting] at hcoerce
      exact Datum.shows_limit_iff.mp (coerce_isFault_iff.mp hcoerce).1 hunshown
    | seconds hname hbeyond =>
      obtain ⟨hname, hsetting⟩ := hname
      have hcoerce := h _ (congrArg ofData hname)
      rw [hsetting] at hcoerce
      exact (coerce_isFault_iff.mp hcoerce).2 _ rfl rfl hbeyond
  · intro h
    have hk : k.Shows Nesting.limit := Datum.shows_limit_iff.mpr fun hunshown => h (.key hunshown)
    refine ⟨hk, fun name hname => ?_⟩
    have hdisplay : k.display Nesting.limit = .ok name := by
      cases hd : k.display Nesting.limit with
      | error e => rw [hd] at hname; cases hname
      | ok t => rw [hd] at hname; exact congrArg Except.ok (Except.ok.inj hname)
    split
    next => exact failsOnly_refuse_iff.mpr hk
    next s hsetting =>
      refine coerce_isFault_iff.mpr ⟨?_, ?_⟩
      · exact Datum.shows_limit_iff.mpr fun hunshown => h (.value ⟨hdisplay, hsetting⟩ hunshown)
      · rintro n rfl rfl hbeyond
        exact h (.seconds ⟨hdisplay, hsetting⟩ hbeyond)

/-- The first entry that is not taken is unusable. -/
inductive Breaks : Entries → Prop where
  | here {k v : Datum} {es : Entries} (h : Unusable k v) : Breaks ((k, v) :: es)
  | later {k v : Datum} {es : Entries} {a : Assignment} (htaken : ofEntry k v = .ok a) (h : Breaks es) :
      Breaks ((k, v) :: es)

theorem mapM_ofEntry_isFault_iff {es : Entries} :
    FailsOnly Failure.IsFault (es.mapM fun (k, v) => ofEntry k v) ↔ ¬ Breaks es := by
  induction es with
  | nil => exact iff_of_true (failsOnly_pure _) fun h => by cases h
  | cons e es ih =>
    obtain ⟨k, v⟩ := e
    simp only [List.mapM_cons, failsOnly_bind_iff, failsOnly_pure, implies_true, and_true, ih,
      ofEntry_isFault_iff]
    constructor
    · rintro ⟨hhere, hlater⟩ hbreaks
      cases hbreaks with
      | here h => exact hhere h
      | later htaken h => exact hlater _ htaken h
    · intro h
      exact ⟨fun hun => h (.here hun), fun a htaken hbreaks => h (.later htaken hbreaks)⟩

theorem ofEntries_isFault_iff {es : Entries} :
    FailsOnly Failure.IsFault (ofEntries es) ↔ ¬ Breaks es := by
  simp only [ofEntries, failsOnly_bind_iff, failsOnly_pure, implies_true, and_true,
    mapM_ofEntry_isFault_iff]

/-- The variables of an environment are taken or refused as faults. -/
theorem ofEnvironment_isFault (env : Environment) :
    FailsOnly Failure.IsFault (ofEnvironment env) := by
  refine FailsOnly.mapM fun (s, value) _ => coerce_isFault_iff.mpr ⟨⟨_, rfl⟩, ?_⟩
  rintro n - ⟨⟩

/-! ### Files -/

/-- A file cannot be opened. -/
def Unopened (e : Files.ReadFault) : Prop := ∃ f, e = .unopened f

theorem readText_unopened_iff {files : Files.Tree} {path : Files.Path} :
    FailsOnly Unopened (files.readText path) ↔
      path.text.nameFault? = none ∧ path.text.nameBytes.contains 0 = false ∧
        ∀ bytes, files.readBytes path = .ok bytes → ∃ cs, Utf8.decodeStrict bytes = .ok cs := by
  rw [Files.Tree.readText]
  cases hname : path.text.nameFault? with
  | some f =>
    refine iff_of_false (fun h => ?_) fun h => nomatch h.1
    obtain ⟨f', hf⟩ := failsOnly_error.mp h
    cases hf
  | none =>
    dsimp only
    split
    next hzero =>
      refine iff_of_false (fun h => ?_) fun h => by rw [hzero] at h; exact nomatch h.2.1
      obtain ⟨f', hf⟩ := failsOnly_error.mp h
      cases hf
    next hzero =>
      rw [Bool.not_eq_true] at hzero
      cases hbytes : files.readBytes path with
      | error f => exact iff_of_true (failsOnly_error.mpr ⟨f, rfl⟩) ⟨rfl, hzero, nofun⟩
      | ok bytes =>
        dsimp only
        cases hdecode : Utf8.decodeStrict bytes with
        | error f =>
          refine iff_of_false (fun h => ?_) fun h => ?_
          · obtain ⟨f', hf⟩ := h _ rfl
            cases hf
          · obtain ⟨cs, hcs⟩ := h.2.2 bytes rfl
            rw [hdecode] at hcs
            cases hcs
        | ok cs =>
          refine iff_of_true (failsOnly_ok _) ⟨rfl, hzero, ?_⟩
          rintro _ ⟨⟩
          exact ⟨cs, hdecode⟩

theorem readDocument_isFault_iff {path : Files.Path} {text : String} {yaml : Yaml.Loader} :
    FailsOnly Failure.IsFault (readDocument path text yaml) ↔ ¬ Document.TooDeep path.name text ∧
      (Document.ReadsYaml path.name text → FailsOnly DataError.IsValue (yaml text)) := by
  have hyaml : Document.readYaml text yaml = (yaml text).map .shared := by
    rw [Document.readYaml, Text.toString?_ofString]
  have hread := @Document.read_isValue_iff yaml path.name text
  rw [hyaml, failsOnly_map] at hread
  rw [← hread, readDocument]
  cases hx : Document.read Nesting.limit none (some path.name) text yaml with
  | ok c => exact iff_of_true (failsOnly_ok c) (failsOnly_ok c)
  | error e =>
    dsimp only
    split
    next hkind => exact iff_of_true (failsOnly_error.mpr ⟨_, rfl⟩) (failsOnly_error.mpr hkind)
    next hkind =>
      refine iff_of_false (fun h => ?_) fun h => ?_
      · exact not_isFault_data e (failsOnly_error.mp h)
      · exact hkind (h e rfl)

/-- **Too many opening brackets** in a file that is taken for JSON are no fault of the configuration. -/
theorem readDocument_of_brackets {path : Files.Path} {n : Nat} {cs : List Char} (yaml : Yaml.Loader)
    (hdetect : Format.detect (some path.name)
      (some (Text.ofString (String.ofList (List.replicate n '[' ++ cs)))) = some .json)
    (hn : Nesting.limit < n) :
    readDocument path (String.ofList (List.replicate n '[' ++ cs)) yaml = .error (.data .tooDeep) := by
  have hpoints : Text.ofString (String.ofList (List.replicate n '[' ++ cs)) =
      ⟨List.replicate n (.char '[') ++ cs.map .char⟩ := by
    simp [Text.ofString, Text.ofChars]
  have hread : Document.read Nesting.limit none (some path.name)
      (Text.ofString (String.ofList (List.replicate n '[' ++ cs))) yaml = .error .tooDeep := by
    show Document.readIn Nesting.limit ((Format.detect _ _).getD .yaml) _ yaml = _
    rw [hdetect, Option.getD_some, Document.readIn, hpoints, Json.read_of_brackets hn]
  rw [readDocument, hread]
  rfl

theorem settingsOf_isFault (path : Files.Path) (c : Document.Content) :
    FailsOnly Failure.IsFault (settingsOf path c) := by
  rw [settingsOf]
  split
  · exact failsOnly_ok _
  · split
    · exact failsOnly_ok _
    · exact failsOnly_error.mpr ⟨_, rfl⟩

/-- **No error escapes from a file**: whatever is wrong with it is a fault of the configuration. -/
structure Contained (yaml : Yaml.Loader) (files : Files.Tree) (path : Files.Path) : Prop where
  /-- the name of the file has bytes, none of which is zero -/
  name : path.text.nameFault? = none
  nonzero : path.text.nameBytes.contains 0 = false
  /-- what the file holds is UTF-8 -/
  decodes : ∀ bytes, files.readBytes path = .ok bytes → ∃ cs, Utf8.decodeStrict bytes = .ok cs
  /-- it is not nested too deeply for JSON or TOML -/
  shallow : ∀ text, files.readText path = .ok text → ¬ Document.TooDeep path.name text
  /-- if it is read as YAML, nothing is wrong but with a value that is not allowed -/
  asYaml : ∀ text, files.readText path = .ok text → Document.ReadsYaml path.name text →
    ∀ e, yaml text = .error e → e.IsValue
  /-- the first of its settings that is not taken is a fault -/
  settings : ∀ text c entries, files.readText path = .ok text → readDocument path text yaml = .ok c →
    settingsOf path c = .ok entries → ¬ Breaks (entries.map fun (k, v) => (k, v.datum))

variable {yaml : Yaml.Loader}

theorem ofFile_isFault_iff {files : Files.Tree} {path : Files.Path} :
    FailsOnly Failure.IsFault (ofFile files path yaml) ↔ Contained yaml files path := by
  cases htext : files.readText path with
  | error e =>
    have hfile : FailsOnly Failure.IsFault (ofFile files path yaml) ↔ Unopened e := by
      rw [ofFile, htext]
      cases e with
      | unopened f => exact iff_of_true (failsOnly_throw.mpr ⟨_, rfl⟩) ⟨f, rfl⟩
      | _ => exact iff_of_false (fun h => nomatch failsOnly_throw.mp h) nofun
    have hno (text : String) : files.readText path ≠ .ok text := by
      rw [htext]
      nofun
    rw [hfile]
    constructor
    · intro hopen
      obtain ⟨hname, hnonzero, hdecodes⟩ :=
        readText_unopened_iff.mp (htext ▸ failsOnly_error.mpr hopen)
      exact ⟨hname, hnonzero, hdecodes, fun text h => absurd h (hno text),
        fun text h => absurd h (hno text), fun text _ _ h => absurd h (hno text)⟩
    · intro h
      exact readText_unopened_iff.mpr ⟨h.name, h.nonzero, h.decodes⟩ e htext
  | ok text =>
    have hfile : FailsOnly Failure.IsFault (ofFile files path yaml) ↔
        FailsOnly Failure.IsFault (readDocument path text yaml) ∧
          ∀ c, readDocument path text yaml = .ok c → ∀ entries, settingsOf path c = .ok entries →
            ¬ Breaks (entries.map fun (k, v) => (k, v.datum)) := by
      rw [ofFile, htext]
      simp only [failsOnly_bind_iff, settingsOf_isFault, ofEntries_isFault_iff, true_and]
    rw [hfile, readDocument_isFault_iff]
    constructor
    · rintro ⟨⟨hshallow, hyaml⟩, hsettings⟩
      obtain ⟨hname, hnonzero, hdecodes⟩ := readText_unopened_iff.mp (htext ▸ failsOnly_ok text)
      refine ⟨hname, hnonzero, hdecodes, ?_, ?_, ?_⟩
      · intro text' htext'
        obtain rfl := Except.ok.inj (htext.symm.trans htext')
        exact hshallow
      · intro text' htext'
        obtain rfl := Except.ok.inj (htext.symm.trans htext')
        exact hyaml
      · intro text' c entries htext' hc
        obtain rfl := Except.ok.inj (htext.symm.trans htext')
        exact hsettings c hc entries
    · intro h
      exact ⟨⟨h.shallow text htext, h.asYaml text htext⟩,
        fun c hc entries => h.settings text c entries htext hc⟩

/-- **A configuration is loaded or at fault unless an error escapes from its file**, whatever reads YAML. -/
theorem load_ok_or_fault_iff (yaml : Yaml.Loader) (files : Files.Tree) (path : Option Text)
    (env : Environment) :
    ((∃ c, load files path env yaml = .ok c) ∨ ∃ f, load files path env yaml = .error (.fault f)) ↔
      ∀ p, path = some p → Contained yaml files (.ofText p) := by
  have hload : FailsOnly Failure.IsFault (load files path env yaml) ↔
      ∀ p, path = some p → Contained yaml files (.ofText p) := by
    cases path with
    | none => exact iff_of_true ((ofEnvironment_isFault env).bind fun _ => failsOnly_pure _) nofun
    | some p =>
      simp only [load, failsOnly_bind_iff, ofFile_isFault_iff, ofEnvironment_isFault, failsOnly_pure,
        implies_true, and_true, Option.some.injEq, forall_eq']
  rw [← hload]
  cases load files path env yaml with
  | ok c => exact iff_of_true (.inl ⟨c, rfl⟩) (failsOnly_ok c)
  | error e =>
    rw [failsOnly_error]
    constructor
    · rintro (⟨c, ⟨⟩⟩ | ⟨f, ⟨⟩⟩)
      exact isFault_fault f
    · rintro ⟨f, rfl⟩
      exact .inr ⟨f, rfl⟩

/-- A file may set the timeout to an integer beyond every number. Then nothing is loaded, and what is
answered is no fault of the configuration. -/
theorem load_of_timeout_beyond_float :
    let content := "\x7b\"timeout\": 1".toList ++ List.replicate 309 '0' ++ ['\x7d']
    let files : Files.Tree := [([Text.ofString "c.json"], .file (Utf8.encode content))]
    ¬ ((∃ c, load files (some "c.json") [] = .ok c) ∨
      ∃ f, load files (some "c.json") [] = .error (.fault f)) := by
  intro content files
  have htext : files.readText (.ofText "c.json") = .ok (String.ofList content) := by decide +kernel
  -- for any characters at first: the string of these ones would be decoded to be compared with them
  have hload {cs : List Char} (htext : files.readText (.ofText "c.json") = .ok (String.ofList cs))
      (hcs : cs = content) : load files (some "c.json") [] = .error (.data .integerBeyondFloat) := by
    simp only [load, ofFile, htext, readDocument, Text.ofString_ofList]
    rw [hcs]
    decide +kernel
  rw [hload htext rfl]
  rintro (⟨c, ⟨⟩⟩ | ⟨f, ⟨⟩⟩)

end Config

end JanetEmbedding
