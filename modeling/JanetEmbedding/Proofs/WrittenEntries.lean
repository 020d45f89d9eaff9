import JanetEmbedding.Proofs.Keys
import JanetEmbedding.Proofs.Walk

/-!
# Entries that are written

A document has texts for keys, so a dictionary is written under the texts of its keys, and two keys of one
text come to one entry. So a dictionary is written entry by entry if no two of its keys have the same text.
The keys of a conversion may well have: a number has the text of the string of its digits, and a tuple that
of the string of its display.

## Conventions

* What is written in either format is the *plain form* of a value, `Datum.toPlain`. It is read back from the
  text in JSON, and the text in YAML is what the library that writes YAML makes of it.
* The text of a key and the plain form of a value are those for which there is room: `Datum.keyName` and
  `Datum.plainForm` are given as much as they need.
* Keys are not looked into: a dictionary within a value is an item, or the value of an entry, at any depth.

## Main definitions

* `Datum.keyName`, `Datum.plainForm`: the text of a key, and the plain form of a value.
* `Datum.Within`: the values within a value.
* `Datum.TextsApart`: no two keys of a dictionary have the same text.
* `Datum.KeysApart`: the same of every dictionary within a value.
* `Datum.WrittenOut`: a value is written entry by entry.

## Main results

* `Datum.exists_object`: the fields that a dictionary is written as.
* `Datum.writtenOut_iff`: a value is written entry by entry if no two keys have the same text.
* `Janet.Value.convert_written_entries`: what is written of a conversion.
-/

namespace JanetEmbedding

/-! ### Setting several fields -/

namespace Fields

variable {α : Type} {fs pairs : List (Text × α)}

/-- Fields set one after the other. -/
def setAll (fs pairs : List (Text × α)) : List (Text × α) :=
  pairs.foldl (fun fs (t, v) => set fs t v) fs

/-- New names go to the end, in their order. -/
theorem setAll_of_nodup (h : (fs.map Prod.fst ++ pairs.map Prod.fst).Nodup) :
    setAll fs pairs = fs ++ pairs := by
  induction pairs generalizing fs with
  | nil => exact (List.append_nil fs).symm
  | cons p pairs ih =>
      have hnew : p.1 ∉ fs.map Prod.fst := by
        intro hmem
        exact (List.nodup_append.mp h).2.2 _ hmem _ List.mem_cons_self rfl
      show setAll (set fs p.1 p.2) pairs = _
      rw [set_of_notMem hnew, ih ?_, List.append_assoc]
      · rfl
      · simpa [List.append_assoc] using h

/-- Names stay different. -/
theorem nodup_setAll (fs pairs : List (Text × α)) (h : (fs.map Prod.fst).Nodup) :
    ((setAll fs pairs).map Prod.fst).Nodup := by
  induction pairs generalizing fs with
  | nil => exact h
  | cons p pairs ih => exact ih _ (nodup_set h p.1 p.2)

/-- The names are those that were there and those that are set. -/
theorem mem_names_setAll (fs pairs : List (Text × α)) (t : Text) :
    t ∈ (setAll fs pairs).map Prod.fst ↔ t ∈ fs.map Prod.fst ∨ t ∈ pairs.map Prod.fst := by
  induction pairs generalizing fs with
  | nil => simp [setAll]
  | cons p pairs ih =>
      have hset : t ∈ (set fs p.1 p.2).map Prod.fst ↔ t ∈ fs.map Prod.fst ∨ t = p.1 := by
        rw [map_fst_set]
        split
        next hmem =>
          constructor
          · exact .inl
          · rintro (h | rfl)
            · exact h
            · exact hmem
        next => rw [List.mem_append, List.mem_singleton]
      show t ∈ (setAll (set fs p.1 p.2) pairs).map Prod.fst ↔ _
      rw [ih, hset, List.map_cons, List.mem_cons, or_assoc]

/-- **Each of several fields has a place of its own** exactly if their names are different. -/
theorem length_setAll_eq_iff (pairs : List (Text × α)) :
    (setAll [] pairs).length = pairs.length ↔ (pairs.map Prod.fst).Nodup := by
  constructor
  · intro hlength
    have hnodup := nodup_setAll [] pairs List.nodup_nil
    have hsub : (setAll [] pairs).map Prod.fst ⊆ pairs.map Prod.fst := by
      intro t ht
      simpa using (mem_names_setAll [] pairs t).mp ht
    have hperm : List.Perm ((setAll [] pairs).map Prod.fst) (pairs.map Prod.fst) :=
      (List.subperm_of_subset hnodup hsub).perm_of_length_le (by simp [hlength])
    exact hperm.nodup_iff.mp hnodup
  · intro hnodup
    have hsame : setAll [] pairs = [] ++ pairs := setAll_of_nodup hnodup
    rw [hsame, List.nil_append]

end Fields

namespace Datum

open Nesting (Needs)

/-! ### Texts and forms that there is room for -/

/-- The **text of a key**, for which there is room. -/
def keyName (k : Datum) : Except DataError Text := k.keyText k.keyTextCalls

/-- The **plain form** of a value, for which there is room. -/
def plainForm (x : Datum) : Except DataError Plain := x.toPlain x.plainCalls

/-- The text that a native key has in some room is the text that it has. -/
theorem Native.keyName_of_keyText {room : Nat} {k : Datum} {t : Text} (hk : k.Native)
    (hkey : k.canBeKey = true) (h : k.keyText room = .ok t) : k.keyName = .ok t := by
  obtain ⟨t', ht'⟩ := hk.exists_keyText hkey
  obtain ⟨-, rfl⟩ := ht'.eq_ok_iff.mp h
  exact ht'.eq_ok (Nat.le_refl _)

/-- The plain form that a native value has in some room is the plain form that it has. -/
theorem Native.plainForm_of_toPlain {room : Nat} {x : Datum} {p : Plain} (hx : x.Native)
    (h : x.toPlain room = .ok p) : x.plainForm = .ok p := by
  obtain ⟨j, -, hplain, -⟩ := hx.hasPlain
  obtain ⟨-, rfl⟩ := hplain.eq_ok_iff.mp h
  exact hplain.eq_ok (Nat.le_refl _)

/-! ### Values that are written entry by entry -/

/-- The values **within** a value: itself, and what is within its items and the values of its entries. -/
inductive Within (x : Datum) : Datum → Prop
  | itself : Within x x
  | item {xs : List Datum} {y : Datum} (hy : y ∈ xs) (hx : Within x y) : Within x (list xs)
  | member {xs : List Datum} {y : Datum} (hy : y ∈ xs) (hx : Within x y) : Within x (tuple xs)
  | value {es : Entries} {e : Datum × Datum} (he : e ∈ es) (hx : Within x e.2) : Within x (dict es)

/-- No two keys of a dictionary **have the same text**. -/
def TextsApart (es : Entries) : Prop := es.Pairwise fun e f => e.1.keyName ≠ f.1.keyName

instance (es : Entries) : Decidable (TextsApart es) := inferInstanceAs (Decidable (es.Pairwise _))

/-- No two keys of any dictionary within a value have the same text. -/
def KeysApart (x : Datum) : Prop := ∀ {es : Entries}, (dict es).Within x → TextsApart es

/-- A value is **written entry by entry**: every dictionary within it has a field for each of its entries,
in their order, under the text of the key. -/
inductive WrittenOut : Datum → Plain → Prop
  | leaf {x : Datum} (hx : x.isCollection = false) : WrittenOut x (.leaf x)
  | list {xs : List Datum} {ps : List Plain} (h : List.Forall₂ WrittenOut xs ps) :
      WrittenOut (list xs) (.list ps)
  | tuple {xs : List Datum} {ps : List Plain} (h : List.Forall₂ WrittenOut xs ps) :
      WrittenOut (tuple xs) (.list ps)
  | dict {es : Entries} {fs : List (Text × Plain)}
      (hkeys : List.Forall₂ (fun e f => e.1.keyName = .ok f.1) es fs)
      (hvalues : List.Forall₂ (fun e f => WrittenOut e.2 f.2) es fs) :
      WrittenOut (dict es) (.object fs)

/-! ### What is written of a value -/

open Janet.Value (exists_of_bind_ok exists_of_map_ok)

/-- An entry **becomes** a field: its key has the text, and its value the plain form. -/
def Becomes (e : Datum × Datum) (f : Text × Plain) : Prop :=
  e.1.keyName = .ok f.1 ∧ e.2.plainForm = .ok f.2

theorem forall₂_of_toPlains {room : Nat} {xs : List Datum} {ps : List Plain} (hxs : ∀ x ∈ xs, x.Native)
    (h : toPlains room xs = .ok ps) : List.Forall₂ (fun x p => x.plainForm = .ok p) xs ps := by
  induction xs generalizing ps with
  | nil =>
      obtain rfl : [] = ps := Except.ok.inj h
      exact .nil
  | cons x xs ih =>
      obtain ⟨p, hp, h⟩ := exists_of_bind_ok h
      obtain ⟨rest, hrest, h⟩ := exists_of_bind_ok h
      obtain rfl : p :: rest = ps := Except.ok.inj h
      obtain ⟨hx, hxs⟩ := List.forall_mem_cons.mp hxs
      exact .cons (hx.plainForm_of_toPlain hp) (ih hxs hrest)

/-- An entry is **native** if its key and its value are, and the key can be one. -/
def NativeEntry (e : Datum × Datum) : Prop := e.1.Native ∧ e.1.canBeKey = true ∧ e.2.Native

theorem Native.entries {es : Entries} (h : Native (.dict es)) : ∀ e ∈ es, NativeEntry e := by
  cases h with
  | dict hkeys hhashable hvalues => exact fun e he => ⟨hkeys e he, hhashable e he, hvalues e he⟩

/-- **The fields of a dictionary** are what its entries become, set one after the other. -/
theorem exists_of_toFields {room : Nat} {before fields : List (Text × Plain)} {es : Entries}
    (hes : ∀ e ∈ es, NativeEntry e) (h : toFields room before es = .ok fields) :
    ∃ pairs, List.Forall₂ Becomes es pairs ∧ fields = Fields.setAll before pairs := by
  induction es generalizing before with
  | nil =>
      obtain rfl : before = fields := Except.ok.inj h
      exact ⟨[], .nil, rfl⟩
  | cons e es ih =>
      obtain ⟨k, v⟩ := e
      obtain ⟨t, ht, h⟩ := exists_of_bind_ok h
      obtain ⟨p, hp, h⟩ := exists_of_bind_ok h
      obtain ⟨⟨hk, hkey, hv⟩, hes⟩ := List.forall_mem_cons.mp hes
      obtain ⟨pairs, hpairs, hfields⟩ := ih hes h
      exact ⟨(t, p) :: pairs, .cons ⟨hk.keyName_of_keyText hkey ht, hv.plainForm_of_toPlain hp⟩ hpairs,
        hfields⟩

/-- The texts of keys are different if no two keys have the same. -/
theorem textsApart_iff {es : Entries} {pairs : List (Text × Plain)} (h : List.Forall₂ Becomes es pairs) :
    TextsApart es ↔ (pairs.map Prod.fst).Nodup := by
  have htexts : es.map (fun e => e.1.keyName) = (pairs.map Prod.fst).map Except.ok := by
    induction h with
    | nil => rfl
    | cons hbecomes _ ih => rw [List.map_cons, List.map_cons, List.map_cons, ih, hbecomes.1]
  have hmap : TextsApart es ↔ (es.map fun e => e.1.keyName).Nodup := by
    rw [List.Nodup, List.pairwise_map]
    rfl
  rw [hmap, htexts, List.nodup_map_iff fun _ _ => Except.ok.inj]

theorem mem_texts_iff {es : Entries} {pairs : List (Text × Plain)} (h : List.Forall₂ Becomes es pairs)
    (t : Text) : t ∈ pairs.map Prod.fst ↔ ∃ e ∈ es, e.1.keyName = .ok t := by
  induction h with
  | nil => simp
  | @cons e f _ _ hbecomes _ ih =>
      have hfirst : t = f.1 ↔ e.1.keyName = .ok t := by
        rw [hbecomes.1, Except.ok.injEq, eq_comm]
      simp [hfirst, ih]

/-- A dictionary has the plain form that its fields make. -/
theorem exists_of_plainForm {es : Entries} {p : Plain} (h : (dict es).plainForm = .ok p) :
    ∃ room fields, toFields room [] es = .ok fields ∧ .object fields = p :=
  ⟨_, (exists_of_toPlain_dict h).2⟩

/-- Entries of which no two keys have the same text become the fields one by one. -/
theorem forall₂_of_textsApart {room : Nat} {es : Entries} {fields : List (Text × Plain)}
    (hes : ∀ e ∈ es, NativeEntry e) (h : toFields room [] es = .ok fields) (hapart : TextsApart es) :
    List.Forall₂ Becomes es fields := by
  obtain ⟨pairs, hpairs, rfl⟩ := exists_of_toFields hes h
  have hsame : Fields.setAll [] pairs = [] ++ pairs :=
    Fields.setAll_of_nodup ((textsApart_iff hpairs).mp hapart)
  rw [hsame]
  exact hpairs

/-- **A dictionary is written under the texts of its keys**, each of which is there once. It has as many
fields as entries exactly if no two keys have the same text. -/
theorem exists_object {es : Entries} {p : Plain} (hes : (dict es).Native)
    (h : (dict es).plainForm = .ok p) :
    ∃ fields, p = .object fields ∧ (fields.map Prod.fst).Nodup ∧
      (∀ t, t ∈ fields.map Prod.fst ↔ ∃ e ∈ es, e.1.keyName = .ok t) ∧
      (fields.length = es.length ↔ TextsApart es) := by
  obtain ⟨room, fields, hfields, rfl⟩ := exists_of_plainForm h
  obtain ⟨pairs, hpairs, rfl⟩ := exists_of_toFields hes.entries hfields
  refine ⟨_, rfl, Fields.nodup_setAll [] pairs List.nodup_nil, fun t => ?_, ?_⟩
  · have hmem : t ∈ (Fields.setAll [] pairs).map Prod.fst ↔ t ∈ pairs.map Prod.fst := by
      simpa using Fields.mem_names_setAll [] pairs t
    rw [hmem, mem_texts_iff hpairs]
  · rw [hpairs.length_eq, Fields.length_setAll_eq_iff, textsApart_iff hpairs]

/-- A dictionary that is written with as many fields as entries has no two keys of the same text. -/
theorem apart_of_length {es : Entries} {fields : List (Text × Plain)} (hes : (dict es).Native)
    (h : (dict es).plainForm = .ok (.object fields)) (hlength : es.length = fields.length) :
    TextsApart es := by
  obtain ⟨fields, hfields, -, -, hiff⟩ := exists_object hes h
  obtain rfl := Plain.object.inj hfields
  exact hiff.mp hlength.symm

variable {x : Datum} {p : Plain}

/-- What is within a native value is native. -/
theorem Within.native {y : Datum} (h : x.Within y) (hy : y.Native) : x.Native := by
  induction h with
  | itself => exact hy
  | item hmem _ ih =>
      cases hy with
      | list hitems => exact ih (hitems _ hmem)
  | member hmem _ ih =>
      cases hy with
      | tuple hitems => exact ih (hitems _ hmem)
  | value hmem _ ih =>
      cases hy with
      | dict _ _ hvalues => exact ih (hvalues _ hmem)

/-- An item of a list that is written entry by entry is so itself. -/
theorem exists_writtenOut {room : Nat} {xs : List Datum} {ps : List Plain} (hxs : ∀ x ∈ xs, x.Native)
    (hps : toPlains room xs = .ok ps) (h : List.Forall₂ WrittenOut xs ps) (hx : x ∈ xs) :
    ∃ p, x.plainForm = .ok p ∧ WrittenOut x p := by
  have hboth := (forall₂_of_toPlains hxs hps).mp (fun _ _ => And.intro) h
  obtain ⟨p, -, hp⟩ := exists_of_forall₂ hboth hx
  exact ⟨p, hp⟩

/-- What is written entry by entry has no two keys of the same text. -/
theorem keysApart_of_writtenOut (hx : x.Native) (hp : x.plainForm = .ok p) (h : WrittenOut x p) :
    KeysApart x := by
  intro es hwithin
  induction hwithin generalizing p with
  | itself =>
      cases h with
      | leaf hleaf => cases hleaf
      | dict hkeys _ => exact apart_of_length hx hp hkeys.length_eq
  | item hy _ ih =>
      obtain ⟨-, ps, hps, rfl⟩ := exists_of_toPlain_list hp
      cases h with
      | list hitems =>
          cases hx with
          | list hxs =>
              obtain ⟨q, hq, hout⟩ := exists_writtenOut hxs hps hitems hy
              exact ih (hxs _ hy) hq hout
  | member hy _ ih =>
      obtain ⟨-, ps, hps, rfl⟩ := exists_of_toPlain_tuple hp
      cases h with
      | tuple hitems =>
          cases hx with
          | tuple hxs =>
              obtain ⟨q, hq, hout⟩ := exists_writtenOut hxs hps hitems hy
              exact ih (hxs _ hy) hq hout
  | value he _ ih =>
      obtain ⟨room, fields, hfields, rfl⟩ := exists_of_plainForm hp
      cases h with
      | dict hkeys hvalues =>
          have hapart := apart_of_length hx hp hkeys.length_eq
          have hboth := (forall₂_of_textsApart hx.entries hfields hapart).mp (fun _ _ => And.intro) hvalues
          obtain ⟨f, -, ⟨-, hf⟩, hout⟩ := exists_of_forall₂ hboth he
          exact ih (hx.entries _ he).2.2 hf hout

/-- Items are written entry by entry together. -/
theorem forall₂_writtenOut {room : Nat} {xs : List Datum} {ps : List Plain} (hxs : ∀ x ∈ xs, x.Native)
    (hps : toPlains room xs = .ok ps) (h : ∀ x ∈ xs, ∀ {p : Plain}, x.plainForm = .ok p → WrittenOut x p) :
    List.Forall₂ WrittenOut xs ps :=
  ((List.forall₂_and_left _ _).mpr ⟨h, forall₂_of_toPlains hxs hps⟩).imp fun _ _ hx => hx.1 hx.2

/-- What has no two keys of the same text is written entry by entry. -/
theorem writtenOut_of_keysApart (hx : x.Native) (hp : x.plainForm = .ok p) (h : KeysApart x) :
    WrittenOut x p := by
  induction hx generalizing p with
  | null | bool | int | float | text =>
      obtain rfl := Except.ok.inj hp
      exact .leaf rfl
  | list hxs ih =>
      obtain ⟨-, ps, hps, rfl⟩ := exists_of_toPlain_list hp
      exact .list (forall₂_writtenOut hxs hps fun y hy _ hq => ih y hy hq fun hz => h (.item hy hz))
  | tuple hxs ih =>
      obtain ⟨-, ps, hps, rfl⟩ := exists_of_toPlain_tuple hp
      exact .tuple (forall₂_writtenOut hxs hps fun y hy _ hq => ih y hy hq fun hz => h (.member hy hz))
  | @dict es hkeys hhashable hvalues _ ih =>
      obtain ⟨room, fields, hfields, rfl⟩ := exists_of_plainForm hp
      have hentries : ∀ e ∈ es, NativeEntry e := Native.entries (.dict hkeys hhashable hvalues)
      have hbecomes := forall₂_of_textsApart hentries hfields (h .itself)
      have hvalue : ∀ e ∈ es, ∀ {q : Plain}, e.2.plainForm = .ok q → WrittenOut e.2 q :=
        fun e he _ hq => ih e he hq fun hz => h (.value he hz)
      refine .dict (hbecomes.imp fun _ _ hf => hf.1) ?_
      exact ((List.forall₂_and_left _ _).mpr ⟨hvalue, hbecomes⟩).imp fun _ _ hf => hf.1 hf.2.2

/-- **A value is written entry by entry exactly if no two keys of a dictionary within it have the same
text.** -/
theorem writtenOut_iff (hx : x.Native) (hp : x.plainForm = .ok p) : WrittenOut x p ↔ KeysApart x :=
  ⟨keysApart_of_writtenOut hx hp, writtenOut_of_keysApart hx hp⟩

/-- What is neither a sequence nor a dictionary has no keys. -/
theorem keysApart_leaf (hx : x.isCollection = false) : KeysApart x := by
  intro es hwithin
  cases hwithin <;> cases hx

/-- The keys of a dictionary are looked at, and those within its values. -/
theorem keysApart_dict {es : Entries} (hes : TextsApart es) (hvalues : ∀ e ∈ es, KeysApart e.2) :
    KeysApart (dict es) := by
  intro fs hwithin
  cases hwithin with
  | itself => exact hes
  | value he hfs => exact hvalues _ he hfs

end Datum

/-- The node of an object has the fields, under their names. -/
theorem Yaml.Node.names_ofFields {room : Nat} {fields : List (Text × Plain)} {ns : List (Node × Node)}
    (h : ofFields room fields = .ok ns) : ns.map Prod.fst = fields.map fun f => scalar none .text f.1 := by
  induction fields generalizing ns with
  | nil =>
      obtain rfl : [] = ns := Except.ok.inj h
      rfl
  | cons f fields ih =>
      obtain ⟨n, -, h⟩ := Janet.Value.exists_of_bind_ok h
      obtain ⟨rest, hrest, h⟩ := Janet.Value.exists_of_bind_ok h
      obtain rfl : (scalar none .text f.1, n) :: rest = ns := Except.ok.inj h
      rw [List.map_cons, List.map_cons, ih hrest]

namespace Janet.Value

open Datum (KeysApart TextsApart WrittenOut)
open Nesting (Needs)

/-- **What a conversion comes to is written entry by entry exactly if no two keys of a dictionary have the
same text.** The plain form fits where the conversion did. Where there is room for it, it is read back from the
text in JSON, and the text in YAML is what any library makes of it; otherwise nothing is written. Every
dictionary within the value has one field for each text that a key has, and so has its node. They are as many as
the entries exactly if no two keys have the same text. -/
theorem convert_written_entries {room : Nat} {v : Value} {x : Datum} (hx : v.convert room = .ok x) :
    ∃ p, Needs .tooDeep (x.toPlain ·) x.plainCalls p ∧ x.plainCalls ≤ room ∧
      (∀ pretty, ∃ t, Needs .tooDeep (Document.write · (some "json") pretty x) x.plainCalls t ∧
        ∀ room, x.plainCalls ≤ room → Document.read room (some "json") none t = .ok (.plain p.toDatum)) ∧
      (∀ (dump : Yaml.Dumper) room pretty, Document.write room (some "yaml") pretty x dump =
        if x.plainCalls ≤ room then (dump room pretty p).map Text.ofString else .error .tooDeep) ∧
      (WrittenOut x p ↔ KeysApart x) ∧
      ∀ {es : Entries}, (Datum.dict es).Within x → ∃ fields calls ns,
        (Datum.dict es).plainForm = .ok (.object fields) ∧ (fields.map Prod.fst).Nodup ∧
        (∀ t, t ∈ fields.map Prod.fst ↔ ∃ e ∈ es, e.1.keyName = .ok t) ∧
        (fields.length = es.length ↔ TextsApart es) ∧
        Needs .tooDeep (Yaml.Node.ofPlain · (.object fields)) calls (.mapping none .mapping ns) ∧
        ns.map Prod.fst = fields.map fun f => .scalar none .text f.1 := by
  have hnative := (converted_of_convert hx).native
  obtain ⟨j, hj, hplain, -, hdepth⟩ := hnative.hasPlain
  refine ⟨j.plain, hplain, plainCalls_le_of_convert hx, fun pretty => ?_, fun dump room pretty => ?_,
    Datum.writtenOut_iff hnative (hplain.eq_ok (Nat.le_refl _)), fun {es} hwithin => ?_⟩
  · refine ⟨j.write pretty, Document.needs_write hplain hj.faithful.ofPlain_plain pretty, ?_⟩
    intro room hroom
    rw [hj.faithful.toDatum_plain]
    exact (Document.needs_readIn (Json.needs_read_write hj pretty)).eq_ok (by omega)
  · exact Document.write_yaml_of_needs hplain dump room pretty
  · obtain ⟨i, hi, hobject, -⟩ := (hwithin.native hnative).hasPlain
    obtain ⟨n, hn⟩ := hi.hasNode
    have hform : (Datum.dict es).plainForm = .ok i.plain := hobject.eq_ok (Nat.le_refl _)
    obtain ⟨fields, hfields, hnodup, hnames, hlength⟩ :=
      Datum.exists_object (hwithin.native hnative) hform
    rw [hfields] at hform hn
    have hmade := hn.eq_ok (Nat.le_refl _)
    rw [Yaml.Node.ofPlain, Nesting.within_eq_ok_iff] at hmade
    obtain ⟨ns, hns, rfl⟩ := exists_of_map_ok hmade.2
    exact ⟨fields, _, ns, hform, hnodup, hnames, hlength, hn, Yaml.Node.names_ofFields hns⟩

/-- A table with the keys `1` and `"b"`, and in it a struct with the keys `[1 "y"]` and `"1"`. -/
theorem convert_written_entries_of_nested :
    let one := number (.ofBool true) .usual
    let inner : Slots :=
      [(sequence .tuple (some [one, ofString "y"]) .usual, nil .usual), (ofString "1", one)]
    let v := mapping .table
      (some [(one, mapping .struct (some inner) .usual), (ofString "b", boolean true .usual)]) .usual
    ∃ x p, v.convert 8 = .ok x ∧ x.toPlain 7 = .ok p ∧ WrittenOut x p ∧
      Document.write 7 (some "json") false x =
        .ok "\x7b\"1\": \x7b\"(1 y)\": null, \"1\": 1.0\x7d, \"b\": true\x7d" := by
  intro one inner v
  let inside : Entries :=
    [(.tuple [.float (.ofBool true), .text "y"], .null), (.text "1", .float (.ofBool true))]
  let entries : Entries := [(.float (.ofBool true), .dict inside), (.text "b", .bool true)]
  have hx : v.convert 8 = .ok (.dict entries) := rfl
  have hinside : KeysApart (.dict inside) := by
    refine Datum.keysApart_dict (by decide +kernel) ?_
    exact List.forall_mem_cons.mpr ⟨Datum.keysApart_leaf rfl,
      List.forall_mem_singleton.mpr (Datum.keysApart_leaf rfl)⟩
  have hapart : KeysApart (.dict entries) := by
    refine Datum.keysApart_dict (by decide +kernel) ?_
    exact List.forall_mem_cons.mpr ⟨hinside,
      List.forall_mem_singleton.mpr (Datum.keysApart_leaf rfl)⟩
  obtain ⟨p, hp, -, -, -, hiff, -⟩ := convert_written_entries hx
  exact ⟨_, p, hx, hp.eq_ok (Nat.le_refl 7), hiff.mpr hapart, rfl⟩

/-- **The number one and the string of its digit** are different keys of a table, but have one text. Of the
two entries that the table converts to, one is written. -/
theorem written_of_one_and_digit :
    let v := mapping .table
      (some [(number (.ofBool true) .usual, ofString "a"), (ofString "1", ofString "b")]) .usual
    let entries : Entries := [(.float (.ofBool true), .text "a"), (.text "1", .text "b")]
    v.convert Nesting.limit = .ok (.dict entries) ∧
      Document.write Nesting.limit (some "json") false (.dict entries) = .ok "\x7b\"1\": \"b\"\x7d" ∧
      Document.write Nesting.limit (some "yaml") false (.dict entries) = .ok "\x7b'1': b\x7d\n" := by
  intro v entries
  exact ⟨rfl, rfl, rfl⟩

end Janet.Value

end JanetEmbedding
