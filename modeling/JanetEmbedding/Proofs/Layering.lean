import JanetEmbedding.Proofs.Spelling

/-!
# Layers of a configuration

A configuration is put together from three layers: what a file says, what the environment says, and what
is said on top of that. Each layer wins over those below it, setting by setting, but all of them are
looked at, so that what is wrong with one of them is told even if nothing would come of it.

A layer is silent about a setting in ways of its own. A variable that is there wins over the file even if
it leaves its setting open; what is said on top and is nothing wins over nothing.

## Main definitions

* `Config.Provides`: the entries that a file has for a configuration.
* `Config.Layered`: the value of a setting, layer by layer.

## Main results

* `Config.ofEnvironment_eq_ok_iff`: variables are taken like the entries of a dictionary.
* `Config.overridden_eq`: what is said on top, setting by setting.
* `Config.load_layered`: when a configuration is loaded, and what its settings are.
-/

namespace JanetEmbedding

open Janet.Value (exists_of_bind_ok)

namespace Config

variable {c : Config} {a : Assignment} {s : Setting} {es : Entries} {env : Environment}
  {files : Files.Tree}

/-! ### Files -/

/-- What a file **provides**: the entries of its section, or all that it has if it has no such section, or
nothing if it is empty. -/
inductive Provides (files : Files.Tree) (path : Files.Path) : Entries → Prop where
  | section {text : String} {content inner : Document.Content}
      {entries settings : List (Datum × Document.Content)} (htext : files.readText path = .ok text)
      (hread : Document.read Nesting.limit none (some path.name) text = .ok content)
      (hentries : content.entries? = some entries)
      (hsection : Entries.find? entries (.text sectionName) = some inner)
      (hsettings : inner.entries? = some settings) :
      Provides files path (settings.map fun (k, v) => (k, v.datum))
  | whole {text : String} {content : Document.Content} {entries : List (Datum × Document.Content)}
      (htext : files.readText path = .ok text)
      (hread : Document.read Nesting.limit none (some path.name) text = .ok content)
      (hentries : content.entries? = some entries)
      (hsection : ∀ inner, Entries.find? entries (.text sectionName) = some inner →
        inner.entries? = none) :
      Provides files path (entries.map fun (k, v) => (k, v.datum))
  | empty {text : String} {content : Document.Content} (htext : files.readText path = .ok text)
      (hread : Document.read Nesting.limit none (some path.name) text = .ok content)
      (hentries : content.entries? = none) (hnull : content.isNull = true) : Provides files path []

/-- The configuration of a file is that of the entries that it provides. -/
theorem Provides.ofFile_eq {path : Files.Path} (h : Provides files path es) :
    ofFile files path = ofEntries es := by
  have hfile : ∀ {text content settings}, files.readText path = .ok text →
      Document.read Nesting.limit none (some path.name) text = .ok content →
      settingsOf path content = .ok settings →
      ofFile files path = ofEntries (settings.map fun (k, v) => (k, v.datum)) := by
    intro text content settings htext hread hsettings
    have hdocument : readDocument path text = .ok content := by rw [readDocument, hread]
    rw [ofFile, htext]
    simp only [hdocument, bind, Except.bind, hsettings]
  cases h with
  | «section» htext hread hentries hsection hsettings =>
      refine hfile htext hread ?_
      simp only [settingsOf, hentries, hsection, Option.bind_some, hsettings, Option.getD_some]
  | @whole text content entries htext hread hentries hsection =>
      refine hfile htext hread ?_
      have hnone : (Entries.find? entries (.text sectionName)).bind (·.entries?) = none :=
        Option.bind_eq_none_iff.mpr hsection
      simp only [settingsOf, hentries, hnone, Option.getD_none]
  | empty htext hread hentries hnull =>
      show ofFile files path =
        ofEntries (([] : List (Datum × Document.Content)).map fun (k, v) => (k, v.datum))
      refine hfile htext hread ?_
      simp only [settingsOf, hentries, hnull, if_true]

/-! ### Variables -/

/-- The variables of an environment, as the entries of a dictionary. -/
def variableEntries (env : Environment) : Entries :=
  (Setting.all.filterMap fun s => (env.lookup (variableName s)).map (s, ·)).map
    fun (s, t) => (.text s.name, .text t)

theorem mem_variableEntries {e : Datum × Datum} : e ∈ variableEntries env ↔
    ∃ s t, env.lookup (variableName s) = some t ∧ e = (.text s.name, .text t) := by
  simp only [variableEntries, List.mem_map, List.mem_filterMap, Option.map_eq_some_iff]
  constructor
  · rintro ⟨_, ⟨s, -, t, ht, rfl⟩, rfl⟩
    exact ⟨s, t, ht, rfl⟩
  · rintro ⟨s, t, ht, rfl⟩
    exact ⟨(s, t), ⟨s, s.mem_all, t, ht, rfl⟩, rfl⟩

/-- A setting has one name in normal form. -/
theorem names_name {s s' : Setting} : Names (.text s.name) s' ↔ s = s' := by
  have hname : Names (.text s.name) s := ⟨rfl, by cases s <;> decide +kernel⟩
  constructor
  · exact hname.unique
  · rintro rfl
    exact hname

/-- Every setting has a variable of its own. -/
theorem apart_variableEntries (env : Environment) : Apart (variableEntries env) := by
  unfold Apart variableEntries
  rw [List.pairwise_map]
  refine List.Pairwise.filterMap _ ?_ (by decide : Setting.all.Pairwise (· ≠ ·))
  rintro s s' hne _ ht _ ht' hequivalent
  obtain ⟨t, -, rfl⟩ := Option.map_eq_some_iff.mp ht
  obtain ⟨t', -, rfl⟩ := Option.map_eq_some_iff.mp ht'
  exact hne (names_name.mp (hequivalent.names_iff.mpr (names_name.mpr rfl)))

/-- **A variable decides** its setting if it is there, whatever it stands for. -/
theorem decides_variableEntries_iff : Decides (variableEntries env) s a ↔
    ∃ t, env.lookup (variableName s) = some t ∧ StandsFor s (.text t) a := by
  rw [(apart_variableEntries env).decides_iff]
  constructor
  · rintro ⟨_, he, hs, ha⟩
    obtain ⟨s', t, ht, rfl⟩ := mem_variableEntries.mp he
    obtain rfl := names_name.mp hs
    exact ⟨t, ht, ha⟩
  · rintro ⟨t, ht, ha⟩
    exact ⟨_, mem_variableEntries.mpr ⟨s, t, ht, rfl⟩, names_name.mpr rfl, ha⟩

theorem omits_variableEntries_iff :
    Omits (variableEntries env) s ↔ env.lookup (variableName s) = none := by
  constructor
  · intro homits
    cases ht : env.lookup (variableName s) with
    | none => rfl
    | some t =>
        exact absurd (names_name.mpr rfl) (homits _ (mem_variableEntries.mpr ⟨s, t, ht, rfl⟩))
  · rintro hnone _ he hs
    obtain ⟨s', t, ht, rfl⟩ := mem_variableEntries.mp he
    obtain rfl := names_name.mp hs
    cases hnone.symm.trans ht

theorem sound_variableEntries_iff : Sound (variableEntries env) ↔
    ∀ s t, env.lookup (variableName s) = some t → ∃ a, StandsFor s (.text t) a := by
  constructor
  · intro hsound s t ht
    obtain ⟨s', a, hs, ha⟩ := hsound _ (mem_variableEntries.mpr ⟨s, t, ht, rfl⟩)
    obtain rfl := names_name.mp hs
    exact ⟨a, ha⟩
  · rintro hsound _ he
    obtain ⟨s, t, ht, rfl⟩ := mem_variableEntries.mp he
    obtain ⟨a, ha⟩ := hsound s t ht
    exact ⟨s, a, names_name.mpr rfl, ha⟩

/-- **Variables are taken like the entries of a dictionary.** -/
theorem ofEnvironment_eq_ok_iff {as : List Assignment} :
    ofEnvironment env = .ok as ↔ List.Forall₂ Takes (variableEntries env) as := by
  rw [ofEnvironment, mapM_eq_ok_iff, variableEntries, List.forall₂_map_left_iff]
  have htakes : ∀ (v : Setting × Text) (a : Assignment),
      coerce v.1 (variableName v.1) (.text v.2) = .ok a ↔ Takes (.text v.1.name, .text v.2) a := by
    rintro ⟨s, t⟩ a
    show _ ↔ ofEntry _ _ = _
    rw [ofEntry_name]
    exact ⟨coerce_congr, coerce_congr⟩
  simp only [htakes]

/-! ### What is said on top -/

/-- The plain value of an assignment, nothing if it leaves its setting open. -/
def Assignment.datum : Assignment → Datum
  | library s => (s.map .text).getD .null
  | nanbox b => (b.map .bool).getD .null
  | timeout t => (t.map Seconds.toDatum).getD .null
  | sourcePath s => (s.map .text).getD .null

theorem datum_assignment (c : Config) (s : Setting) : (c.assignment s).datum = c.datum s := by
  cases s <;> rfl

theorem Assignment.datum_of_isOpen (h : a.isOpen = true) : a.datum = .null := by
  cases a <;> simp_all [isOpen, datum]

/-- Values for settings, by name. -/
def named (overrides : List (Setting × Datum)) : List (Text × Datum) :=
  overrides.map fun (s, x) => (Text.ofString s.name, x)

/-- Different settings have different names. -/
theorem name_inj {s s' : Setting} : Text.ofString s.name = Text.ofString s'.name ↔ s = s' := by
  rw [Text.ofString_inj]
  constructor
  · intro h
    exact Option.some.inj ((Setting.ofName?_name s).symm.trans (h ▸ Setting.ofName?_name s'))
  · rintro rfl
    rfl

theorem lookup_named (overrides : List (Setting × Datum)) (s : Setting) :
    (named overrides).lookup (Text.ofString s.name) = overrides.lookup s := by
  induction overrides with
  | nil => rfl
  | cons o overrides ih =>
      obtain ⟨s', x⟩ := o
      have hbeq : (Text.ofString s.name == Text.ofString s'.name) = (s == s') := by
        rw [Bool.eq_iff_iff, beq_iff_eq, beq_iff_eq, name_inj]
      show List.lookup _ ((Text.ofString s'.name, x) :: named overrides) = _
      rw [List.lookup_cons, List.lookup_cons, hbeq, ih]

/-- What is nothing is left out. -/
theorem filter_named (overrides : List (Setting × Datum)) :
    (named overrides).filter (fun (_, x) => !x.isNull) = named (overrides.filter fun o => !o.2.isNull) :=
  List.filter_map

/-- Settings have the names of settings. -/
theorem find?_named (overrides : List (Setting × Datum)) :
    (named overrides).find? (fun (name, _) => (name.toString?.bind Setting.ofName?).isNone) = none := by
  rw [List.find?_eq_none]
  intro o ho
  obtain ⟨⟨s, x⟩, -, rfl⟩ := List.mem_map.mp ho
  simp [Setting.ofName?_name]

/-- **What is said on top**, setting by setting: the first value for the setting that is something, or else
what the setting is. Every setting has a name, so none is unknown. -/
theorem overridden_eq (c : Config) (overrides : List (Setting × Datum)) :
    c.overridden (named overrides) =
      .ok fun s => ((overrides.filter fun o => !o.2.isNull).lookup s).getD (c.datum s) := by
  unfold overridden
  simp only [filter_named, find?_named, lookup_named]

/-! ### The layers together -/

/-- **The value of a setting, layer by layer.** What is said on top wins if it is something, then the
variable if it is there, even if it leaves the setting open, and then the file. -/
inductive Layered (es : Entries) (env : Environment) (overrides : List (Setting × Datum)) (s : Setting) :
    Datum → Prop where
  | override {x : Datum} (hx : (s, x) ∈ overrides) (hnull : x.isNull = false) :
      Layered es env overrides s x
  | variable {t : Text} {a : Assignment} (hno : ∀ x, (s, x) ∈ overrides → x.isNull = true)
      (ht : env.lookup (variableName s) = some t) (ha : StandsFor s (.text t) a) :
      Layered es env overrides s a.datum
  | file {a : Assignment} (hno : ∀ x, (s, x) ∈ overrides → x.isNull = true)
      (hnone : env.lookup (variableName s) = none) (ha : Decides es s a) :
      Layered es env overrides s a.datum
  | nothing (hno : ∀ x, (s, x) ∈ overrides → x.isNull = true)
      (hnone : env.lookup (variableName s) = none) (homits : Omits es s) :
      Layered es env overrides s .null

/-- The value of a setting if nothing is said on top, for a configuration from a file and variables. -/
theorem layered_setAll {base : Config} {as : List Assignment} (hbase : ofEntries es = .ok base)
    (has : ofEnvironment env = .ok as) {overrides : List (Setting × Datum)}
    (hno : ∀ x, (s, x) ∈ overrides → x.isNull = true) :
    Layered es env overrides s ((base.setAll as).datum s) := by
  rw [← datum_assignment]
  obtain hvariable | ⟨hnone, hfile⟩ :=
    (assignment_setAll_iff (c := base) (ofEnvironment_eq_ok_iff.mp has)).mp rfl
  · obtain ⟨t, ht, ha⟩ := decides_variableEntries_iff.mp hvariable
    exact .variable hno ht ha
  · rw [omits_variableEntries_iff] at hnone
    rw [← hfile]
    obtain hdecides | ⟨homits, hopen⟩ := (ofEntries_eq_ok_iff_decided.mp hbase).2 s
    · exact .file hno hnone hdecides
    · rw [Assignment.datum_of_isOpen hopen]
      exact .nothing hno hnone homits

/-- **Each setting is what the layers say**, and none of them is unknown. -/
theorem layered_overridden {base : Config} {as : List Assignment} (hbase : ofEntries es = .ok base)
    (has : ofEnvironment env = .ok as) (overrides : List (Setting × Datum)) :
    ∃ values, (base.setAll as).overridden (named overrides) = .ok values ∧
      ∀ s, Layered es env overrides s (values s) := by
  refine ⟨_, overridden_eq _ overrides, fun s => ?_⟩
  cases hx : (overrides.filter fun o => !o.2.isNull).lookup s with
  | some x =>
      obtain ⟨before, after, hsplit, -⟩ := List.lookup_eq_some_iff.mp hx
      have hthere : (s, x) ∈ overrides.filter fun o => !o.2.isNull := by simp [hsplit]
      obtain ⟨hmem, hnull⟩ := List.mem_filter.mp hthere
      exact .override hmem (by simpa using hnull)
  | none =>
      refine layered_setAll hbase has fun x hmem => ?_
      by_contra hnull
      have hthere : (s, x) ∈ overrides.filter fun o => !o.2.isNull :=
        List.mem_filter.mpr ⟨hmem, by simpa using hnull⟩
      simpa using List.lookup_eq_none_iff.mp hx _ hthere

/-- Variables that are none of the settings' own do not matter. -/
theorem ofEnvironment_congr {env' : Environment}
    (h : ∀ s, env'.lookup (variableName s) = env.lookup (variableName s)) :
    ofEnvironment env' = ofEnvironment env := by
  simp only [ofEnvironment, h]

/-- **Layers of a configuration.** Whatever the environment is, a configuration is loaded from a file exactly
if all that the file provides is sound and so is every variable that is there, even if it would not decide.
What is wrong with the file is told first, and then what is wrong with the variables. Otherwise each setting
is what is said on top, or else its variable, or else what the file has last, or else nothing. Variables
that are none of the settings' own change nothing. -/
theorem load_layered {path : Text} (hfile : Provides files (.ofText path) es) (env : Environment) :
    ((∃ c, load files (some path) env = .ok c) ↔
      Sound es ∧ ∀ s t, env.lookup (variableName s) = some t → ∃ a, StandsFor s (.text t) a) ∧
    (∀ f, ofEntries es = .error f → load files (some path) env = .error f) ∧
    (∀ f, Sound es → ofEnvironment env = .error f → load files (some path) env = .error f) ∧
    (∀ c, load files (some path) env = .ok c → ∀ overrides, ∃ values,
      c.overridden (named overrides) = .ok values ∧ ∀ s, Layered es env overrides s (values s)) ∧
    ∀ env' : Environment, (∀ s, env'.lookup (variableName s) = env.lookup (variableName s)) →
      load files (some path) env' = load files (some path) env := by
  have hload : ∀ env, load files (some path) env =
      ofEntries es >>= fun base => ofEnvironment env >>= fun as => .ok (base.setAll as) := by
    intro env
    rw [← hfile.ofFile_eq]
    rfl
  rw [← sound_variableEntries_iff]
  refine ⟨⟨?_, ?_⟩, fun f hf => ?_, fun f hsound hf => ?_, fun c hc overrides => ?_, fun env' henv => ?_⟩
  · rintro ⟨c, hc⟩
    rw [hload] at hc
    obtain ⟨base, hbase, hc⟩ := exists_of_bind_ok hc
    obtain ⟨as, has, -⟩ := exists_of_bind_ok hc
    refine ⟨(ofEntries_eq_ok_iff_decided.mp hbase).1, taken_iff_sound.mp ?_⟩
    exact taken_iff.mpr ⟨as, ofEnvironment_eq_ok_iff.mp has⟩
  · rintro ⟨hsound, henv⟩
    obtain ⟨base, hbase⟩ := exists_ofEntries_iff.mpr (taken_iff_sound.mpr hsound)
    obtain ⟨as, has⟩ := taken_iff.mp (taken_iff_sound.mpr henv)
    exact ⟨base.setAll as, by rw [hload, hbase, ofEnvironment_eq_ok_iff.mpr has]; rfl⟩
  · rw [hload, hf]
    rfl
  · obtain ⟨base, hbase⟩ := exists_ofEntries_iff.mpr (taken_iff_sound.mpr hsound)
    rw [hload, hbase, hf]
    rfl
  · rw [hload] at hc
    obtain ⟨base, hbase, hc⟩ := exists_of_bind_ok hc
    obtain ⟨as, has, hc⟩ := exists_of_bind_ok hc
    obtain rfl := Except.ok.inj hc
    exact layered_overridden hbase has overrides
  · rw [hload, hload, ofEnvironment_congr henv]

/-- A file with a section, a variable that opens a setting again, one that sets another, and values on top,
of which one is nothing. -/
theorem load_layered_of_three :
    let content := "\x7b\"timeout\": 0, \"janethost\": \x7b\"nanbox\": true\x7d\x7d"
    let files : Files.Tree := [([Text.ofString "c.json"], .file (Utf8.encode content.toList))]
    let es : Entries := [(.text "nanbox", .bool true)]
    let env : Environment := [("JANETHOST_NANBOX", ""), ("JANETHOST_LIBRARY", "b"), ("PATH", "x")]
    let overrides : List (Setting × Datum) := [(.library, .null), (.sourcePath, .text "y")]
    Provides files (.ofText "c.json") es ∧ load files (some "c.json") env = .ok { library := some "b" } ∧
      ∃ values, Config.overridden { library := some "b" } (named overrides) = .ok values ∧
        ∀ s, Layered es env overrides s (values s) := by
  have hjson : Json.read Nesting.limit "\x7b\"timeout\": 0, \"janethost\": \x7b\"nanbox\": true\x7d\x7d" =
      .ok (.object [("timeout", .int 0), ("janethost", .object [("nanbox", .bool true)])]) := by rfl
  intro content files es env overrides
  have hfile : Provides files (.ofText "c.json") es := by
    let root : Datum := .dict [(.text "timeout", .int 0), (.text "janethost", .dict es)]
    have htext : files.readText (.ofText "c.json") = .ok content := by decide +kernel
    have hdetect : Format.detect (some "c.json") (some content) = some .json := by decide +kernel
    have hread : Document.read Nesting.limit none (some "c.json") content = .ok (.plain root) := by
      show Document.readIn _ ((Format.detect (some "c.json") (some content)).getD .yaml) content = _
      rw [hdetect, Option.getD_some, Document.readIn, hjson]
      rfl
    exact @Provides.section files _ content (.plain root) (.plain (.dict es)) _
      [(.text "nanbox", .plain (.bool true))] htext hread rfl rfl rfl
  have hload : load files (some "c.json") env = .ok { library := some "b" } := by decide +kernel
  exact ⟨hfile, hload, (load_layered hfile env).2.2.2.1 _ hload overrides⟩

end Config

end JanetEmbedding
