import JanetEmbedding.Proofs.Validity

/-!
# Keys of a configuration, in any order and spelling

The entries of a dictionary are taken one after the other, so their order could matter, and so could the
way in which a key is spelled. Neither does, as long as no two keys are the name of one setting. Where
several are, each of them is still looked at, and the last one decides.

## Conventions

* Entries are a list, in which a key may occur again. What is said of a setting is said of its last entry.
* Two keys are **equivalent** if their normal names are the same. A key that cannot be displayed has no
  name, and is equivalent to none.

## Main definitions

* `Config.Decides`: the last entry for a setting, and the assignment that it stands for.
* `Config.Respelled`: the same entries, in another order and with equivalent keys.

## Main results

* `Config.assignment_setAll_iff`: what a setting is after one assignment and another.
* `Config.ofEntries_eq_ok_iff_decided`: the configuration of a dictionary, setting by setting.
* `Config.ofEntries_respelled`: the order and the spelling of the keys do not matter.
-/

namespace JanetEmbedding

open Janet.Value (exists_of_bind_ok exists_of_map_ok)

namespace Config

variable {c : Config} {a : Assignment} {s : Setting} {k v : Datum} {es es' : Entries}

/-! ### Assignments -/

/-- Configurations with the same settings are the same. -/
theorem eq_of_assignment {c' : Config} (h : ∀ s, c.assignment s = c'.assignment s) : c = c' := by
  obtain ⟨library, nanbox, timeout, sourcePath⟩ := c
  obtain rfl := Assignment.library.inj (h .library)
  obtain rfl := Assignment.nanbox.inj (h .nanbox)
  obtain rfl := Assignment.timeout.inj (h .timeout)
  obtain rfl := Assignment.sourcePath.inj (h .sourcePath)
  rfl

/-- An assignment changes its own setting. -/
theorem assignment_set (c : Config) (a : Assignment) (s : Setting) :
    (c.set a).assignment s = if a.setting = s then a else c.assignment s := by
  cases a <;> cases s <;> rfl

/-- A value **stands for** an assignment of a setting. -/
def StandsFor (s : Setting) (v : Datum) (a : Assignment) : Prop := coerce s s.name v = .ok a

/-! What a setting is called is only told where a value is refused. -/

theorem coerceText_congr {name name' : String} {t : Option Text} (h : coerceText name v = .ok t) :
    coerceText name' v = .ok t := by
  rw [coerceText.eq_def] at h
  split at h
  · exact h
  · exact h
  · exact absurd h refuse_ne_ok

theorem coerceTruth_congr {name name' : String} {b : Option Bool} (h : coerceTruth name v = .ok b) :
    coerceTruth name' v = .ok b := by
  rw [coerceTruth.eq_def] at h ⊢
  split at h
  · exact h
  · exact h
  · obtain ⟨word, hword, h⟩ := exists_of_bind_ok h
    rw [hword]
    dsimp only [bind, Except.bind] at h ⊢
    split_ifs at h ⊢
    · exact h
    · exact h
    · exact h
    · exact absurd h refuse_ne_ok

theorem coerceSeconds_congr {name name' : String} {t : Option Seconds}
    (h : coerceSeconds name v = .ok t) : coerceSeconds name' v = .ok t := by
  rw [coerceSeconds.eq_def] at h ⊢
  split at h
  · exact h
  · exact h
  · obtain ⟨d, hd, h⟩ := exists_of_bind_ok h
    rw [hd]
    cases d with
    | none => exact absurd h refuse_ne_ok
    | some x =>
        dsimp only [bind, Except.bind] at h ⊢
        split_ifs at h ⊢
        · exact absurd h refuse_ne_ok
        · exact h

/-- **What a setting is called does not matter** to the values that it takes. -/
theorem coerce_congr {name name' : String} (h : coerce s name v = .ok a) : coerce s name' v = .ok a := by
  cases s with
  | library | sourcePath =>
      obtain ⟨t, ht, rfl⟩ := exists_of_map_ok h
      exact congrArg (Except.map _) (coerceText_congr ht)
  | nanbox =>
      obtain ⟨b, hb, rfl⟩ := exists_of_map_ok h
      exact congrArg (Except.map _) (coerceTruth_congr hb)
  | timeout =>
      obtain ⟨t, ht, rfl⟩ := exists_of_map_ok h
      exact congrArg (Except.map _) (coerceSeconds_congr ht)

/-- What is taken for nothing leaves the setting open. -/
theorem assignment_isOpen_iff : (c.assignment s).isOpen = true ↔
    c.assignment s = ({} : Config).assignment s := by
  cases s <;> simp [assignment, Assignment.isOpen]

/-! ### Entries -/

theorem Names.unique {s' : Setting} (h : Names k s) (h' : Names k s') : s = s' := by
  obtain ⟨hname, hsetting⟩ := h
  obtain ⟨hname', hsetting'⟩ := h'
  obtain rfl := Except.ok.inj (hname.symm.trans hname')
  exact Option.some.inj (hsetting.symm.trans hsetting')

/-- **An entry is taken** if its key is the name of a setting and its value stands for an assignment. -/
theorem takes_iff {e : Datum × Datum} : Takes e a ↔ ∃ s, Names e.1 s ∧ StandsFor s e.2 a := by
  obtain ⟨k, v⟩ := e
  constructor
  · intro h
    obtain ⟨s, name, hnames, hcoerce⟩ := exists_of_ofEntry h
    exact ⟨s, (hnames s).mpr rfl, coerce_congr hcoerce⟩
  · rintro ⟨s, ⟨hname, hsetting⟩, hv⟩
    show ofEntry k v = .ok a
    rw [ofEntry, hname]
    simp only [ofData, Except.mapError, bind, Except.bind, hsetting]
    exact coerce_congr hv

/-- Every entry is **sound**: its key is the name of a setting, which takes its value. -/
def Sound (es : Entries) : Prop := ∀ e ∈ es, ∃ s a, Names e.1 s ∧ StandsFor s e.2 a

/-- No entry is for a setting. -/
def Omits (es : Entries) (s : Setting) : Prop := ∀ e ∈ es, ¬ Names e.1 s

/-- **What decides** a setting: the last entry that is for it, by the assignment that its value stands
for. -/
def Decides (es : Entries) (s : Setting) (a : Assignment) : Prop :=
  ∃ before k v after, es = before ++ (k, v) :: after ∧ Names k s ∧ StandsFor s v a ∧ Omits after s

theorem taken_iff_sound : Taken es ↔ Sound es := by
  refine forall₂_congr fun e _ => ?_
  simp only [takes_iff]
  exact exists_comm

theorem omits_cons_iff : Omits ((k, v) :: es) s ↔ ¬ Names k s ∧ Omits es s := List.forall_mem_cons

/-- The first entry either is the last one for a setting, or does not matter. -/
theorem decides_cons_iff :
    Decides ((k, v) :: es) s a ↔ (Names k s ∧ StandsFor s v a ∧ Omits es s) ∨ Decides es s a := by
  constructor
  · rintro ⟨before, k', v', after, heq, hk, hv, hlast⟩
    cases before with
    | nil =>
        obtain ⟨⟨rfl, rfl⟩, rfl⟩ : (k = k' ∧ v = v') ∧ es = after := by simpa using heq
        exact .inl ⟨hk, hv, hlast⟩
    | cons e before =>
        obtain ⟨-, rfl⟩ : (k, v) = e ∧ es = before ++ (k', v') :: after := by simpa using heq
        exact .inr ⟨before, k', v', after, rfl, hk, hv, hlast⟩
  · rintro (⟨hk, hv, hlast⟩ | ⟨before, k', v', after, rfl, hk, hv, hlast⟩)
    · exact ⟨[], k, v, es, rfl, hk, hv, hlast⟩
    · exact ⟨(k, v) :: before, k', v', after, rfl, hk, hv, hlast⟩

/-- **One assignment after the other**: a setting is what the last entry for it stands for, or what it was
before if there is none. -/
theorem assignment_setAll_iff {as : List Assignment} (h : List.Forall₂ Takes es as) :
    (c.setAll as).assignment s = a ↔ Decides es s a ∨ Omits es s ∧ c.assignment s = a := by
  induction h generalizing c with
  | nil => simp [Decides, Omits, setAll]
  | @cons e b es as heb _ ih =>
      obtain ⟨k, v⟩ := e
      obtain ⟨s', hk, hv⟩ := takes_iff.mp heb
      have hsetting : b.setting = s' := (accepted_of_coerce hv).1
      show ((c.set b).setAll as).assignment s = a ↔ _
      rw [ih, decides_cons_iff, omits_cons_iff, assignment_set, hsetting]
      by_cases hs : s' = s
      · -- whatever the setting was before, this entry sets it anew
        subst hs
        have hstands : StandsFor s' v a ↔ b = a := by
          rw [StandsFor, hv, Except.ok.injEq]
        rw [if_pos rfl, hstands]
        simp only [hk, not_true, true_and, false_and, or_false]
        exact or_comm.trans (or_congr_left and_comm)
      · have hno : ¬ Names k s := fun h => hs (hk.unique h)
        rw [if_neg hs]
        simp [hno]

/-- **The configuration of a dictionary, setting by setting.** There is one exactly if every entry is sound,
also one that does not decide; and a setting that no entry is for is left open. -/
theorem ofEntries_eq_ok_iff_decided : ofEntries es = .ok c ↔
    Sound es ∧ ∀ s, Decides es s (c.assignment s) ∨ Omits es s ∧ (c.assignment s).isOpen = true := by
  rw [ofEntries_eq_ok_iff, ← taken_iff_sound, taken_iff]
  simp only [assignment_isOpen_iff]
  constructor
  · rintro ⟨as, has, rfl⟩
    refine ⟨⟨as, has⟩, fun s => ?_⟩
    exact ((assignment_setAll_iff has).mp rfl).imp_right fun h => ⟨h.1, h.2.symm⟩
  · rintro ⟨⟨as, has⟩, hdecided⟩
    refine ⟨as, has, eq_of_assignment fun s => Eq.symm ?_⟩
    exact (assignment_setAll_iff has).mpr ((hdecided s).imp_right fun h => ⟨h.1, h.2.symm⟩)

/-! ### Equivalent keys -/

/-- Two keys are **equivalent**: what they are displayed as has the same normal name. -/
def Equivalent (k k' : Datum) : Prop :=
  ∃ t t', k.display Nesting.limit = .ok t ∧ k'.display Nesting.limit = .ok t' ∧
    normalName t = normalName t'

/-- The normal name of a setting. -/
theorem normalName_of_setting {t : Text} (h : (normalName t).toString?.bind Setting.ofName? = some s) :
    normalName t = Text.ofString s.name := by
  obtain ⟨x, hx, hs⟩ := Option.bind_eq_some_iff.mp h
  rw [Setting.ofName?] at hs
  have hname : s.name = x := by simpa using List.find?_some hs
  exact hname ▸ Text.eq_ofString_of_toString? hx

/-- Two names of one setting are equivalent. -/
theorem Names.equivalent {k' : Datum} (h : Names k s) (h' : Names k' s) : Equivalent k k' := by
  obtain ⟨hname, hsetting⟩ := h
  obtain ⟨hname', hsetting'⟩ := h'
  exact ⟨_, _, hname, hname',
    (normalName_of_setting hsetting).trans (normalName_of_setting hsetting').symm⟩

/-- An equivalent key is the name of the same setting. -/
theorem Equivalent.names_iff {k' : Datum} (h : Equivalent k k') : Names k s ↔ Names k' s := by
  obtain ⟨t, t', ht, ht', hsame⟩ := h
  constructor
  · rintro ⟨hname, hsetting⟩
    obtain rfl := Except.ok.inj (hname.symm.trans ht)
    exact ⟨ht', hsame ▸ hsetting⟩
  · rintro ⟨hname, hsetting⟩
    obtain rfl := Except.ok.inj (hname.symm.trans ht')
    exact ⟨ht, hsame ▸ hsetting⟩

/-- The keys of a dictionary are **apart**: no two of them are equivalent. -/
def Apart (es : Entries) : Prop := es.Pairwise fun e e' => ¬ Equivalent e.1 e'.1

/-- An entry **respells** another: it has the same value, and the same key or an equivalent one. -/
def Respells (e e' : Datum × Datum) : Prop := (e.1 = e'.1 ∨ Equivalent e.1 e'.1) ∧ e.2 = e'.2

/-- Entries are **respelled**: they are put in another order, and then each of them is respelled. -/
def Respelled (es es' : Entries) : Prop := ∃ moved, es.Perm moved ∧ List.Forall₂ Respells moved es'

/-- If the keys are apart, an entry decides wherever it stands. -/
theorem Apart.decides_iff (hapart : Apart es) :
    Decides es s a ↔ ∃ e ∈ es, Names e.1 s ∧ StandsFor s e.2 a := by
  constructor
  · rintro ⟨before, k, v, after, rfl, hk, hv, -⟩
    exact ⟨(k, v), by simp, hk, hv⟩
  · rintro ⟨⟨k, v⟩, he, hk, hv⟩
    obtain ⟨before, after, rfl⟩ := List.append_of_mem he
    refine ⟨before, k, v, after, rfl, hk, hv, fun e' he' hk' => ?_⟩
    obtain ⟨-, hbehind, -⟩ := List.pairwise_append.mp hapart
    exact List.rel_of_pairwise_cons hbehind he' (hk.equivalent hk')

theorem Respells.names_iff {e e' : Datum × Datum} (h : Respells e e') : Names e.1 s ↔ Names e'.1 s := by
  obtain ⟨hsame | hequivalent, -⟩ := h
  · rw [hsame]
  · exact hequivalent.names_iff

/-- What is true of every entry and does not hang on how keys are spelled. -/
theorem Respelled.forall_mem_iff (h : Respelled es es') {P : Datum × Datum → Prop}
    (hP : ∀ e e', Respells e e' → (P e ↔ P e')) : (∀ e ∈ es, P e) ↔ ∀ e ∈ es', P e := by
  obtain ⟨moved, hperm, hrespells⟩ := h
  simp only [hperm.mem_iff]
  clear hperm
  induction hrespells with
  | nil => rfl
  | cons he _ ih => rw [List.forall_mem_cons, List.forall_mem_cons, ih, hP _ _ he]

theorem Respelled.sound_iff (h : Respelled es es') : Sound es ↔ Sound es' :=
  h.forall_mem_iff fun _ _ he => by simp only [he.names_iff, he.2]

theorem Respelled.omits_iff (h : Respelled es es') : Omits es s ↔ Omits es' s :=
  h.forall_mem_iff fun _ _ he => not_congr he.names_iff

/-- If the keys are apart, what decides in the end decides in the beginning. -/
theorem Respelled.decides (h : Respelled es es') (hapart : Apart es) (hdecides : Decides es' s a) :
    Decides es s a := by
  obtain ⟨before, k, v, after, rfl, hk, hv, -⟩ := hdecides
  rw [hapart.decides_iff]
  by_contra hnone
  have hnowhere : ∀ e ∈ es, ¬ (Names e.1 s ∧ StandsFor s e.2 a) := fun e he hes => hnone ⟨e, he, hes⟩
  rw [h.forall_mem_iff fun e e' he => by rw [he.names_iff, he.2]] at hnowhere
  exact hnowhere (k, v) (by simp) ⟨hk, hv⟩

/-! ### The order and the spelling of keys -/

/-- **The order and the spelling of the keys do not matter**, if they are apart: respelled entries fail if
the entries do, and otherwise have the same configuration. Whether or not they are apart, there is a
configuration exactly if every entry is sound, and each setting is what the last entry for it stands for. -/
theorem ofEntries_respelled (es : Entries) :
    (Apart es → ∀ es', Respelled es es' →
      ((∃ f, ofEntries es = .error f) ↔ ∃ f, ofEntries es' = .error f) ∧
      ∀ c, ofEntries es = .ok c → ofEntries es' = .ok c) ∧
    ∀ c, ofEntries es = .ok c ↔
      Sound es ∧ ∀ s, Decides es s (c.assignment s) ∨ Omits es s ∧ (c.assignment s).isOpen = true := by
  refine ⟨fun hapart es' hrespelled => ?_, fun c => ofEntries_eq_ok_iff_decided⟩
  have hback : ∀ c, ofEntries es' = .ok c → ofEntries es = .ok c := by
    intro c hc
    obtain ⟨hsound, hdecided⟩ := ofEntries_eq_ok_iff_decided.mp hc
    refine ofEntries_eq_ok_iff_decided.mpr ⟨hrespelled.sound_iff.mpr hsound, fun s => ?_⟩
    exact (hdecided s).imp (hrespelled.decides hapart) fun h => ⟨hrespelled.omits_iff.mpr h.1, h.2⟩
  have hforth : ∀ c, ofEntries es = .ok c → ofEntries es' = .ok c := by
    intro c hc
    have htaken : Taken es' := by
      rw [taken_iff_sound, ← hrespelled.sound_iff]
      exact (ofEntries_eq_ok_iff_decided.mp hc).1
    obtain ⟨c', hc'⟩ := exists_ofEntries_iff.mpr htaken
    obtain rfl := Except.ok.inj (hc.symm.trans (hback c' hc'))
    exact hc'
  refine ⟨?_, hforth⟩
  cases hes : ofEntries es with
  | ok c => simp [hforth c hes]
  | error f =>
      cases hes' : ofEntries es' with
      | ok c => cases hes.symm.trans (hback c hes')
      | error f' => simp

/-- Three entries are put in another order, and two of them are spelled in another way. -/
theorem ofEntries_respelled_of_three :
    let es : Entries := [(.text "library", .text "a.so"), (.text "Source-Path", .text "x"),
      (.text "nanbox", .text "Yes")]
    let es' : Entries := [(.text "NANBOX", .text "Yes"), (.text "library", .text "a.so"),
      (.text "source_path", .text "x")]
    Apart es ∧ Respelled es es' ∧
      ofEntries es' = .ok { library := some "a.so", nanbox := some true, sourcePath := some "x" } := by
  intro es es'
  have hapart : Apart es := by
    have hne : ∀ {t t' : Text}, normalName t ≠ normalName t' → ¬ Equivalent (.text t) (.text t') := by
      rintro t t' hne ⟨_, _, ⟨⟩, ⟨⟩, hsame⟩
      exact hne hsame
    simp only [Apart, es, List.pairwise_cons, List.forall_mem_cons]
    exact ⟨⟨hne (by decide +kernel), hne (by decide +kernel), nofun⟩, ⟨hne (by decide +kernel), nofun⟩,
      nofun, .nil⟩
  have hrespelled : Respelled es es' := by
    refine ⟨[(.text "nanbox", .text "Yes"), (.text "library", .text "a.so"),
      (.text "Source-Path", .text "x")], ?_, ?_⟩
    · exact @List.perm_append_comm _ [_, _] [_]
    · exact .cons ⟨.inr ⟨_, _, rfl, rfl, by decide +kernel⟩, rfl⟩
        (.cons ⟨.inl rfl, rfl⟩ (.cons ⟨.inr ⟨_, _, rfl, rfl, by decide +kernel⟩, rfl⟩ .nil))
  have hok : ofEntries es = .ok { library := some "a.so", nanbox := some true, sourcePath := some "x" } := by
    decide +kernel
  exact ⟨hapart, hrespelled, ((ofEntries_respelled es).1 hapart es' hrespelled).2 _ hok⟩

/-- A value is looked at even if another one decides. -/
example : ofEntries [(.text "nanbox", .int 7), (.text "NANBOX", .bool true)] =
    .error (.fault (.notTruth "nanbox" "7")) := by
  decide +kernel

end Config

end JanetEmbedding
