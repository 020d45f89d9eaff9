import JanetEmbedding.Proofs.KeyText
import JanetEmbedding.Proofs.Loading

/-!
# Configurations that are taken from plain data

A configuration is valid if the texts that it has are not empty and the time limit that it has is positive.
Entries are refused one by one: a value of the wrong kind, and a number of seconds that is at most zero.
Not-a-number is not at most zero, so it is taken, and that is all that can be wrong with a configuration
once it is there.

## Conventions

* How values are laid out needs no condition. What is taken for it is a truth value or leaves it open.
* A time limit is **no number** if it is not-a-number.

## Main definitions

* `Config.Valid`: the valid configurations.
* `Config.NanLimit`: the last entry for the time limit stands for no number.

## Main results

* `Config.accepted_of_coerce`: what a single value is taken for.
* `Config.timeout_setAll_iff`: when the time limit is no number after one entry and another.
* `Config.valid_ofEntries_iff`: when a configuration that is taken is valid.
* `Config.ofEntries_entries`: a valid configuration is taken from its own values.
* `Config.ofEntries_valid_or_fault_iff`: when a dictionary is at fault or its configuration is valid.
-/

namespace JanetEmbedding

open Janet.Value (exists_of_bind_ok exists_of_map_ok)

/-- Steps that are made for the items of a list have results one by one. -/
theorem mapM_eq_ok_iff {ε α β : Type} {f : α → Except ε β} {xs : List α} {ys : List β} :
    xs.mapM f = .ok ys ↔ List.Forall₂ (fun x y => f x = .ok y) xs ys := by
  induction xs generalizing ys with
  | nil =>
      rw [List.forall₂_nil_left_iff]
      exact ⟨fun h => (Except.ok.inj h).symm, fun h => congrArg Except.ok h.symm⟩
  | cons x xs ih =>
      rw [List.mapM_cons, List.forall₂_cons_left_iff]
      constructor
      · intro h
        obtain ⟨y, hy, h⟩ := exists_of_bind_ok h
        obtain ⟨rest, hrest, h⟩ := exists_of_bind_ok h
        exact ⟨y, rest, hy, ih.mp hrest, (Except.ok.inj h).symm⟩
      · rintro ⟨y, rest, hy, hrest, rfl⟩
        rw [hy, ih.mpr hrest]
        rfl

theorem Seconds.isPositive_iff {t : Seconds} :
    t.isPositive = true ↔ t.isOver = false ∧ t ≠ .real .nan := by
  simp [isPositive]

namespace Config

/-! ### Valid configurations -/

/-- A configuration is **valid**: its texts are not empty, and its time limit is positive, as far as it has
them. -/
structure Valid (c : Config) : Prop where
  library : c.library.all (!·.isEmpty) = true
  timeout : c.timeout.all (·.isPositive) = true
  sourcePath : c.sourcePath.all (!·.isEmpty) = true

/-- What every configuration that is taken has in common: its texts are not empty, and its time limit is not
at most zero. -/
structure Accepted (c : Config) : Prop where
  library : c.library.all (!·.isEmpty) = true
  timeout : c.timeout.all (!·.isOver) = true
  sourcePath : c.sourcePath.all (!·.isEmpty) = true

/-- The setting that is assigned. -/
def Assignment.setting : Assignment → Setting
  | library _ => .library
  | nanbox _ => .nanbox
  | timeout _ => .timeout
  | sourcePath _ => .sourcePath

/-- An assignment that keeps a configuration accepted. -/
def Assignment.Accepted : Assignment → Prop
  | library s => s.all (!·.isEmpty) = true
  | nanbox _ => True
  | timeout t => t.all (!·.isOver) = true
  | sourcePath s => s.all (!·.isEmpty) = true

variable {c : Config} {a : Assignment}

theorem exists_of_setting_timeout (h : a.setting = .timeout) : ∃ t, a = .timeout t := by
  cases a with
  | timeout t => exact ⟨t, rfl⟩
  | library | nanbox | sourcePath => cases h

/-- Other settings leave the time limit as it is. -/
theorem timeout_set_of_ne (h : a.setting ≠ .timeout) : (c.set a).timeout = c.timeout := by
  cases a with
  | timeout t => exact absurd rfl h
  | library | nanbox | sourcePath => rfl

theorem accepted_default : Accepted {} := ⟨rfl, rfl, rfl⟩

theorem Accepted.set (hc : c.Accepted) (ha : a.Accepted) : (c.set a).Accepted := by
  cases a with
  | library s => exact ⟨ha, hc.timeout, hc.sourcePath⟩
  | nanbox b => exact ⟨hc.library, hc.timeout, hc.sourcePath⟩
  | timeout t => exact ⟨hc.library, ha, hc.sourcePath⟩
  | sourcePath s => exact ⟨hc.library, hc.timeout, ha⟩

/-- **Not-a-number is all that is in the way** of what is accepted being valid. -/
theorem Accepted.valid_iff (hc : c.Accepted) : c.Valid ↔ c.timeout ≠ some (.real .nan) := by
  constructor
  · intro hvalid hnan
    have hpositive := hvalid.timeout
    rw [hnan] at hpositive
    cases hpositive
  · intro hnan
    refine ⟨hc.library, ?_, hc.sourcePath⟩
    have htimeout := hc.timeout
    cases ht : c.timeout with
    | none => rfl
    | some t =>
        rw [ht] at htimeout hnan
        have hover : t.isOver = false := by simpa using htimeout
        exact Seconds.isPositive_iff.mpr ⟨hover, fun h => hnan (congrArg some h)⟩

/-! ### Values -/

variable {name : String} {k v : Datum}

/-- A value that is refused is not taken. -/
theorem refuse_ne_ok {α : Type} {f : String → Fault} {x : Datum} {y : α} : refuse f x ≠ .ok y := by
  intro h
  obtain ⟨s, -, h⟩ := exists_of_bind_ok h
  cases h

theorem ofData_eq_ok_iff {α : Type} {x : Except DataError α} {y : α} :
    ofData x = .ok y ↔ x = .ok y := by
  cases x with
  | ok z => simp [ofData, Except.mapError]
  | error e => exact iff_of_false nofun nofun

/-- A text that is taken is not empty. -/
theorem nonempty_of_coerceText {s : Option Text} (h : coerceText name v = .ok s) :
    s.all (!·.isEmpty) = true := by
  rw [coerceText.eq_def] at h
  split at h
  · obtain rfl := Except.ok.inj h
    rfl
  next t =>
    obtain rfl := Except.ok.inj h
    cases hempty : t.isEmpty <;> simp [hempty]
  · exact absurd h refuse_ne_ok

/-- **A number of seconds that is taken is not at most zero**, but may be no number. -/
theorem not_isOver_of_coerceSeconds {t : Option Seconds} (h : coerceSeconds name v = .ok t) :
    t.all (!·.isOver) = true ∧ (t = some (.real .nan) ↔ asDouble? v = .ok (some .nan)) := by
  rw [coerceSeconds.eq_def] at h
  split at h
  · obtain rfl := Except.ok.inj h
    exact ⟨rfl, by simp [asDouble?]⟩
  · obtain rfl := Except.ok.inj h
    have hnone : asDouble? (.text ⟨[]⟩) = .ok none := by decide +kernel
    exact ⟨rfl, by simp [hnone]⟩
  · obtain ⟨d, hd, h⟩ := exists_of_bind_ok h
    rw [ofData_eq_ok_iff.mp hd]
    cases d with
    | none => exact absurd h refuse_ne_ok
    | some x =>
        dsimp only at h
        split at h
        · exact absurd h refuse_ne_ok
        next hpositive =>
          obtain rfl : some (.real x) = t := Except.ok.inj h
          refine ⟨?_, by simp⟩
          have hover : (Seconds.real x).isOver = false := Bool.eq_false_iff.mpr hpositive
          simp [hover]

/-- **The value of a setting is assigned to it**, and is what the setting may be. Only for the time limit can
it be no number. -/
theorem accepted_of_coerce {s : Setting} (h : coerce s name v = .ok a) :
    a.setting = s ∧ a.Accepted ∧
      (a = .timeout (some (.real .nan)) ↔ s = .timeout ∧ asDouble? v = .ok (some .nan)) := by
  cases s with
  | library =>
      obtain ⟨t, ht, rfl⟩ := exists_of_map_ok h
      exact ⟨rfl, nonempty_of_coerceText ht, iff_of_false nofun nofun⟩
  | nanbox =>
      obtain ⟨b, -, rfl⟩ := exists_of_map_ok h
      exact ⟨rfl, trivial, iff_of_false nofun nofun⟩
  | timeout =>
      obtain ⟨t, ht, rfl⟩ := exists_of_map_ok h
      obtain ⟨hover, hnan⟩ := not_isOver_of_coerceSeconds ht
      exact ⟨rfl, hover, by simp [hnan]⟩
  | sourcePath =>
      obtain ⟨t, ht, rfl⟩ := exists_of_map_ok h
      exact ⟨rfl, nonempty_of_coerceText ht, iff_of_false nofun nofun⟩

/-! ### Entries -/

/-- An entry that is taken names the setting that is assigned. -/
theorem exists_of_ofEntry (h : ofEntry k v = .ok a) :
    ∃ s name, (∀ s', Names k s' ↔ s' = s) ∧ coerce s name v = .ok a := by
  obtain ⟨t, ht, h⟩ := exists_of_bind_ok h
  have hdisplay := ofData_eq_ok_iff.mp ht
  split at h
  · exact absurd h refuse_ne_ok
  next s hs =>
    refine ⟨s, t.shown, fun s' => ⟨?_, ?_⟩, h⟩
    · rintro ⟨hname, hsetting⟩
      obtain rfl := Except.ok.inj (hdisplay.symm.trans hname)
      exact Option.some.inj (hsetting.symm.trans hs)
    · rintro rfl
      exact ⟨hdisplay, hs⟩

theorem accepted_of_ofEntry (h : ofEntry k v = .ok a) : a.Accepted := by
  obtain ⟨s, name, -, hcoerce⟩ := exists_of_ofEntry h
  exact (accepted_of_coerce hcoerce).2.1

/-- An entry is **taken** as an assignment. -/
def Takes (e : Datum × Datum) (a : Assignment) : Prop := ofEntry e.1 e.2 = .ok a

/-- Every entry of a dictionary is taken. -/
def Taken (es : Entries) : Prop := ∀ e ∈ es, ∃ a, Takes e a

/-- The last entry of a dictionary that is for the time limit stands for **no number**. -/
inductive NanLimit : Entries → Prop where
  | last {k v : Datum} {es : Entries} (hk : Names k .timeout) (hv : asDouble? v = .ok (some .nan))
      (hlast : ∀ e ∈ es, ¬ Names e.1 .timeout) : NanLimit ((k, v) :: es)
  | later {e : Datum × Datum} {es : Entries} (h : NanLimit es) : NanLimit (e :: es)

variable {es : Entries} {as : List Assignment}

/-- The first entry either is the last one for the time limit, or does not matter. -/
theorem nanLimit_cons_iff : NanLimit ((k, v) :: es) ↔
    (Names k .timeout ∧ asDouble? v = .ok (some .nan) ∧ ∀ e ∈ es, ¬ Names e.1 .timeout) ∨
      NanLimit es := by
  constructor
  · rintro (⟨hk, hv, hlast⟩ | h)
    · exact .inl ⟨hk, hv, hlast⟩
    · exact .inr h
  · rintro (⟨hk, hv, hlast⟩ | h)
    · exact .last hk hv hlast
    · exact .later h

theorem ofEntries_eq_ok_iff : ofEntries es = .ok c ↔
    ∃ as, List.Forall₂ Takes es as ∧ c = setAll {} as := by
  constructor
  · intro h
    obtain ⟨as, has, h⟩ := exists_of_bind_ok h
    exact ⟨as, mapM_eq_ok_iff.mp has, (Except.ok.inj h).symm⟩
  · rintro ⟨as, has, rfl⟩
    rw [ofEntries, mapM_eq_ok_iff.mpr has]
    rfl

theorem taken_iff : Taken es ↔ ∃ as, List.Forall₂ Takes es as := by
  constructor
  · intro htaken
    induction es with
    | nil => exact ⟨[], .nil⟩
    | cons e es ih =>
        obtain ⟨⟨a, ha⟩, hes⟩ := List.forall_mem_cons.mp htaken
        obtain ⟨as, has⟩ := ih hes
        exact ⟨a :: as, .cons ha has⟩
  · rintro ⟨as, has⟩
    induction has with
    | nil => exact fun e he => absurd he List.not_mem_nil
    | cons hea _ ih => exact List.forall_mem_cons.mpr ⟨⟨_, hea⟩, ih⟩

/-- **There is a configuration** exactly if every entry is taken. -/
theorem exists_ofEntries_iff : (∃ c, ofEntries es = .ok c) ↔ Taken es := by
  simp only [ofEntries_eq_ok_iff, taken_iff]
  constructor
  · rintro ⟨_, as, has, -⟩
    exact ⟨as, has⟩
  · rintro ⟨as, has⟩
    exact ⟨_, as, has, rfl⟩

/-- Entries that are taken keep a configuration accepted. -/
theorem accepted_setAll (hc : c.Accepted) (h : List.Forall₂ Takes es as) :
    (c.setAll as).Accepted := by
  induction h generalizing c with
  | nil => exact hc
  | cons hea _ ih => exact ih (hc.set (accepted_of_ofEntry hea))

/-- **One entry after the other**: the time limit is no number if the last entry for it stands for none, or
if it was none before and no entry is for it. -/
theorem timeout_setAll_iff (h : List.Forall₂ Takes es as) :
    (c.setAll as).timeout = some (.real .nan) ↔
      NanLimit es ∨ c.timeout = some (.real .nan) ∧ ∀ e ∈ es, ¬ Names e.1 .timeout := by
  induction h generalizing c with
  | nil =>
      refine ⟨fun h => .inr ⟨h, nofun⟩, ?_⟩
      rintro (h | ⟨h, -⟩)
      · cases h
      · exact h
  | @cons e a es as hea _ ih =>
      obtain ⟨k, v⟩ := e
      obtain ⟨s, name, hnames, hcoerce⟩ := exists_of_ofEntry hea
      obtain ⟨hsetting, -, hnan⟩ := accepted_of_coerce hcoerce
      show ((c.set a).setAll as).timeout = _ ↔ _
      rw [ih]
      by_cases hs : s = .timeout
      · -- whatever the limit was before, this entry sets it anew
        have hk : Names k .timeout := (hnames _).mpr hs.symm
        have hset : (c.set a).timeout = some (.real .nan) ↔ asDouble? v = .ok (some .nan) := by
          obtain ⟨t, rfl⟩ := exists_of_setting_timeout (hsetting.trans hs)
          simpa [hs, set] using hnan
        rw [hset, nanLimit_cons_iff, List.forall_mem_cons]
        simp [hk, or_comm]
      · have hk : ¬ Names k .timeout := fun h => hs ((hnames _).mp h).symm
        rw [timeout_set_of_ne (hsetting.symm ▸ hs), nanLimit_cons_iff, List.forall_mem_cons]
        simp [hk]

/-- **A configuration that is taken is valid unless not-a-number is its time limit.** -/
theorem valid_ofEntries_iff (h : ofEntries es = .ok c) : c.Valid ↔ ¬ NanLimit es := by
  obtain ⟨as, has, rfl⟩ := ofEntries_eq_ok_iff.mp h
  rw [(accepted_setAll accepted_default has).valid_iff, ne_eq, timeout_setAll_iff has]
  simp

/-! ### Time limits that are read -/

/-- A time limit that is taken is a floating-point number of seconds. -/
theorem ne_whole_of_coerce {s : Setting} (h : coerce s name v = .ok a) (n : Int) :
    a ≠ .timeout (some (.whole n)) := by
  rintro rfl
  cases s with
  | library | nanbox | sourcePath => obtain ⟨t, -, heq⟩ := exists_of_map_ok h; cases heq
  | timeout =>
      obtain ⟨t, ht, heq⟩ := exists_of_map_ok h
      obtain rfl := Assignment.timeout.inj heq
      rw [coerceSeconds.eq_def] at ht
      split at ht
      · cases ht
      · cases ht
      · obtain ⟨d, -, ht⟩ := exists_of_bind_ok ht
        cases d with
        | none => exact refuse_ne_ok ht
        | some x =>
            dsimp only at ht
            split at ht
            · exact refuse_ne_ok ht
            · cases ht

theorem timeout_setAll_ne_whole (hc : ∀ n, c.timeout ≠ some (.whole n))
    (has : ∀ a ∈ as, ∀ n, a ≠ .timeout (some (.whole n))) :
    ∀ n, (c.setAll as).timeout ≠ some (.whole n) := by
  induction as generalizing c with
  | nil => exact hc
  | cons a as ih =>
      obtain ⟨ha, has⟩ := List.forall_mem_cons.mp has
      refine ih (c := c.set a) (fun n => ?_) has
      cases a with
      | timeout t => exact fun ht => ha n (congrArg Assignment.timeout ht)
      | library | nanbox | sourcePath => exact hc n

variable {yaml : Yaml.Loader}

/-- The configuration of a file, if there is one. -/
def ofFile? (files : Files.Tree) (path : Option Text) (yaml : Yaml.Loader := Yaml.read) :
    Except Failure Config :=
  match path with
  | none => .ok {}
  | some path => ofFile files (.ofText path) yaml

theorem load_eq (files : Files.Tree) (path : Option Text) (env : Environment) :
    load files path env yaml =
      ofFile? files path yaml >>= fun base => (ofEnvironment env).map base.setAll := by
  cases path with
  | none => cases henv : ofEnvironment env <;> simp [load, ofFile?, henv] <;> rfl
  | some path =>
      cases hfile : ofFile files (.ofText path) yaml <;> cases henv : ofEnvironment env <;>
        simp [load, ofFile?, hfile, henv] <;> rfl

/-- What the steps for the items of a list come to comes of one of them. -/
theorem exists_of_mem_mapM {ε α β : Type} {f : α → Except ε β} {xs : List α} {ys : List β}
    (h : xs.mapM f = .ok ys) {y : β} (hy : y ∈ ys) : ∃ x ∈ xs, f x = .ok y := by
  have hall := mapM_eq_ok_iff.mp h
  clear h
  induction hall with
  | nil => cases hy
  | cons hx _ ih =>
      rcases List.mem_cons.mp hy with rfl | hy
      · exact ⟨_, List.mem_cons_self, hx⟩
      · obtain ⟨x, hmem, hx⟩ := ih hy
        exact ⟨x, List.mem_cons_of_mem _ hmem, hx⟩

/-- The configuration of a file is that of some entries. -/
theorem exists_of_ofFile {files : Files.Tree} {path : Files.Path} (h : ofFile files path yaml = .ok c) :
    ∃ es, ofEntries es = .ok c := by
  unfold ofFile at h
  split at h
  next => cases h
  next => cases h
  next => cases h
  next => cases h
  next text _ =>
    obtain ⟨content, -, h⟩ := exists_of_bind_ok h
    obtain ⟨settings, -, h⟩ := exists_of_bind_ok h
    exact ⟨_, h⟩

theorem ofEntries_timeout_ne_whole (h : ofEntries es = .ok c) : ∀ n, c.timeout ≠ some (.whole n) := by
  obtain ⟨as, has, h⟩ := exists_of_bind_ok h
  obtain rfl := Except.ok.inj h
  refine timeout_setAll_ne_whole (fun n hn => nomatch hn) fun a ha => ?_
  obtain ⟨⟨k, v⟩, -, hentry⟩ := exists_of_mem_mapM has ha
  obtain ⟨s, name, -, hcoerce⟩ := exists_of_ofEntry hentry
  exact ne_whole_of_coerce hcoerce

/-- **A time limit that is loaded** is a floating-point number of seconds, whatever it has been read from. -/
theorem load_timeout_ne_whole {files : Files.Tree} {path : Option Text} {env : Environment}
    (h : load files path env yaml = .ok c) : ∀ n, c.timeout ≠ some (.whole n) := by
  rw [load_eq] at h
  obtain ⟨base, hbase, h⟩ := exists_of_bind_ok h
  obtain ⟨as, has, rfl⟩ := exists_of_map_ok h
  refine timeout_setAll_ne_whole ?_ fun a ha => ?_
  · cases path with
    | none =>
        obtain rfl := Except.ok.inj hbase
        exact fun n hn => nomatch hn
    | some p =>
        obtain ⟨es, hes⟩ := exists_of_ofFile hbase
        exact ofEntries_timeout_ne_whole hes
  · obtain ⟨⟨s, t⟩, -, hcoerce⟩ := exists_of_mem_mapM has ha
    exact ne_whole_of_coerce hcoerce

/-! ### Valid configurations are taken -/

/-- The settings of a configuration by name, with their plain values. -/
def entries (c : Config) : Entries := Setting.all.map fun s => (.text s.name, c.datum s)

/-- The value that a setting has, as an assignment. -/
def assignment (c : Config) : Setting → Assignment
  | .library => .library c.library
  | .nanbox => .nanbox c.nanbox
  | .timeout => .timeout c.timeout
  | .sourcePath => .sourcePath c.sourcePath

theorem coerceText_datum {s : Option Text} (h : s.all (!·.isEmpty) = true) :
    coerceText name ((s.map .text).getD .null) = .ok s := by
  cases s with
  | none => rfl
  | some t =>
      have hempty : t.isEmpty = false := by simpa using h
      simp [coerceText, hempty]

theorem coerceSeconds_datum {t : Option Seconds} (h : t.all (·.isPositive) = true)
    (hreal : ∀ n, t ≠ some (.whole n)) :
    coerceSeconds name ((t.map Seconds.toDatum).getD .null) = .ok t := by
  cases t with
  | none => rfl
  | some t =>
      cases t with
      | whole n => exact absurd rfl (hreal n)
      | real x =>
          have hx : x.isNonPositive = false := (Seconds.isPositive_iff.mp h).1
          show (if x.isNonPositive then _ else _) = _
          rw [if_neg (Bool.eq_false_iff.mp hx)]
          rfl

/-- Every setting takes the plain value that it has. -/
theorem coerce_datum (hc : c.Valid) (hreal : ∀ n, c.timeout ≠ some (.whole n)) (s : Setting) :
    coerce s name (c.datum s) = .ok (c.assignment s) := by
  cases s with
  | library => exact congrArg (Except.map _) (coerceText_datum hc.library)
  | nanbox => cases hb : c.nanbox <;> simp [coerce, datum, assignment, hb, coerceTruth, Except.map]
  | timeout => exact congrArg (Except.map _) (coerceSeconds_datum hc.timeout hreal)
  | sourcePath => exact congrArg (Except.map _) (coerceText_datum hc.sourcePath)

theorem ofEntry_name (s : Setting) (v : Datum) : ofEntry (.text s.name) v = coerce s s.name v := by
  cases s <;> rfl

/-- **Every valid configuration is taken** from the plain values of its settings. A whole number of seconds
would come back as a floating-point number. -/
theorem ofEntries_entries (hc : c.Valid) (hreal : ∀ n, c.timeout ≠ some (.whole n)) :
    ofEntries c.entries = .ok c := by
  refine ofEntries_eq_ok_iff.mpr ⟨Setting.all.map c.assignment, ?_, rfl⟩
  rw [entries, List.forall₂_map_left_iff, List.forall₂_map_right_iff, List.forall₂_same]
  intro s _
  exact (ofEntry_name s _).trans (coerce_datum hc hreal s)

/-! ### Faults and valid configurations -/

/-- **A dictionary is at fault or its configuration is valid**, except in two cases: the first entry that is
not taken is unusable, or all entries are taken and the last one for the time limit stands for no number. -/
theorem ofEntries_valid_or_fault_iff (es : Entries) :
    ((∃ c, ofEntries es = .ok c ∧ c.Valid) ∨ ∃ f, ofEntries es = .error (.fault f)) ↔
      ¬ Breaks es ∧ ¬ (Taken es ∧ NanLimit es) := by
  rw [← ofEntries_isFault_iff]
  constructor
  · rintro (⟨c, hc, hvalid⟩ | ⟨f, hf⟩)
    · refine ⟨hc ▸ failsOnly_ok c, fun h => ?_⟩
      exact (valid_ofEntries_iff hc).mp hvalid h.2
    · refine ⟨hf ▸ failsOnly_error.mpr ⟨f, rfl⟩, fun h => ?_⟩
      obtain ⟨c, hc⟩ := exists_ofEntries_iff.mpr h.1
      rw [hc] at hf
      cases hf
  · rintro ⟨hfault, hnan⟩
    cases hes : ofEntries es with
    | error e =>
        obtain ⟨f, rfl⟩ := hfault e hes
        exact .inr ⟨f, rfl⟩
    | ok c =>
        have htaken : Taken es := exists_ofEntries_iff.mp ⟨c, hes⟩
        exact .inl ⟨c, rfl, (valid_ofEntries_iff hes).mpr fun h => hnan ⟨htaken, h⟩⟩

/-- **Not-a-number is taken for a time limit**, and an integer beyond every number is no fault of the
configuration. -/
theorem ofEntries_of_no_number :
    (∃ c, ofEntries [(.text "timeout", .float .nan)] = .ok c ∧ ¬ c.Valid) ∧
      ofEntries [(.text "timeout", .int (10 ^ 309))] = .error (.data .integerBeyondFloat) := by
  refine ⟨⟨{ timeout := some (.real .nan) }, rfl, fun h => ?_⟩, by decide +kernel⟩
  have hpositive := h.timeout
  cases hpositive

end Config

end JanetEmbedding
