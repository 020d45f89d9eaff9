import JanetEmbedding.Document
import JanetEmbedding.Proofs.Depth
import JanetEmbedding.Proofs.Tokens

/-!
# Values that are written as JSON and read back

A native value is written as JSON and read back as the value with its keys turned into texts and its
tuples into lists, and what is read is written as the same text. This takes room: a value that is nested too
deeply is not written at all.

## Conventions

* The value that is compared is the *plain form*, `Datum.toPlain`: two keys of one text have fallen
  together there, so what is read is compared entry by entry and in order.
* Nothing is assumed about how numbers are written and read. That a double reads back from its text is
  `Json.isAtom_textWith`.
* What a walk needs is counted beside the walk: `Datum.plainCalls` the calls for the plain form, and
  `Json.depth` the lists and objects around the innermost part, which reading has to hold. Whatever is
  written can be read and written again in the same room.

## Main definitions

* `Json.plain`: the value with text keys that a JSON value stands for.
* `Json.depth`: how deeply a JSON value is nested.
* `Datum.Native`: a value that JSON has a form for, with any keys that can be keys.
* `Datum.plainCalls`: the calls that the plain form of a value needs.

## Main results

* `Json.needs_read_write`: a written value is read back.
* `Json.WellFormed.faithful`: a JSON value and its plain form determine each other.
* `Datum.Native.hasPlain`: a native value has a plain form.
* `Document.read_write_json`: reading undoes writing.
-/

namespace JanetEmbedding

/-! ### Fields -/

namespace Fields

variable {α β : Type}

/-- A new field goes to the end. -/
theorem set_of_notMem {fs : List (Text × α)} {k : Text} (hk : k ∉ fs.map Prod.fst) (v : α) :
    set fs k v = fs ++ [(k, v)] := by
  induction fs with
  | nil => rfl
  | cons f fs ih =>
      obtain ⟨k', v'⟩ := f
      rw [List.map_cons, List.mem_cons, not_or] at hk
      rw [set, if_neg (Ne.symm hk.1), ih hk.2]
      rfl

/-- Setting a field keeps the names, and adds at most its own. -/
theorem map_fst_set (fs : List (Text × α)) (k : Text) (v : α) :
    (set fs k v).map Prod.fst =
      if k ∈ fs.map Prod.fst then fs.map Prod.fst else fs.map Prod.fst ++ [k] := by
  induction fs with
  | nil => rfl
  | cons f fs ih =>
      obtain ⟨k', v'⟩ := f
      rw [set]
      by_cases hk : k' = k
      · simp [hk]
      · rw [if_neg hk, List.map_cons, ih]
        by_cases hmem : k ∈ fs.map Prod.fst <;> simp [hmem, Ne.symm hk]

/-- **Names stay different** when a field is set. -/
theorem nodup_set {fs : List (Text × α)} (hfs : (fs.map Prod.fst).Nodup) (k : Text) (v : α) :
    ((set fs k v).map Prod.fst).Nodup := by
  rw [map_fst_set]
  split
  next => exact hfs
  next hk => exact List.nodup_append.mpr ⟨hfs, List.nodup_singleton k, by grind⟩

theorem mem_set {fs : List (Text × α)} {k : Text} {v : α} {f : Text × α} (hf : f ∈ set fs k v) :
    f ∈ fs ∨ f.2 = v := by
  induction fs with
  | nil => exact .inr (congrArg Prod.snd (List.mem_singleton.mp hf))
  | cons f' fs ih =>
      obtain ⟨k', v'⟩ := f'
      rw [set] at hf
      split at hf
      · rcases List.mem_cons.mp hf with rfl | hf
        · exact .inr rfl
        · exact .inl (List.mem_cons_of_mem _ hf)
      · rcases List.mem_cons.mp hf with rfl | hf
        · exact .inl List.mem_cons_self
        · exact (ih hf).imp_left (List.mem_cons_of_mem _)

/-- Fields are set alike whatever they hold. -/
theorem map_set (g : α → β) (fs : List (Text × α)) (k : Text) (v : α) :
    (set fs k v).map (fun f => (f.1, g f.2)) = set (fs.map fun f => (f.1, g f.2)) k (g v) := by
  induction fs with
  | nil => rfl
  | cons f fs ih =>
      obtain ⟨k', v'⟩ := f
      by_cases hk : k' = k <;> simp [set, hk, ih]

end Fields

/-! ### The calls for the plain form -/

namespace Datum

open Nesting (Needs)

mutual

/-- The calls that the **text of a key** needs. -/
def keyTextCalls : Datum → Nat
  | tuple items => 3 + keyTextsCalls items
  | _ => 0

/-- The calls that the texts of the items of a key need. -/
def keyTextsCalls : List Datum → Nat
  | [] => 0
  | x :: xs => max (keyTextCalls x) (keyTextsCalls xs)

end

mutual

/-- The calls that the **plain form** of a value needs. -/
def plainCalls : Datum → Nat
  | list items => 2 + plainsCalls items
  | tuple items => 2 + plainsCalls items
  | dict entries => 2 + fieldsCalls entries
  | _ => 0

/-- The calls that the plain forms of the items of a list need. -/
def plainsCalls : List Datum → Nat
  | [] => 0
  | x :: xs => max (plainCalls x) (plainsCalls xs)

/-- The calls that the plain forms of entries need, and the texts of their keys. -/
def fieldsCalls : Entries → Nat
  | [] => 0
  | (k, v) :: es => max (keyTextCalls k) (max (plainCalls v) (fieldsCalls es))

end

variable {x k v : Datum} {items : List Datum} {es : Entries} {p : Plain} {ps : List Plain}
  {fs : List (Text × Plain)} {calls more : Nat}

theorem needs_toPlain_list (h : Needs .tooDeep (toPlains · items) calls ps) :
    Needs .tooDeep ((list items).toPlain ·) (2 + calls) (.list ps) := by
  simp only [toPlain]
  exact (h.map _).within 2

theorem needs_toPlain_tuple (h : Needs .tooDeep (toPlains · items) calls ps) :
    Needs .tooDeep ((tuple items).toPlain ·) (2 + calls) (.list ps) := by
  simp only [toPlain]
  exact (h.map _).within 2

theorem needs_toPlain_dict (h : Needs .tooDeep (toFields · [] es) calls fs) :
    Needs .tooDeep ((dict es).toPlain ·) (2 + calls) (.object fs) := by
  simp only [toPlain]
  exact (h.map _).within 2

theorem needs_toPlains_cons (h : Needs .tooDeep (x.toPlain ·) calls p)
    (hrest : Needs .tooDeep (toPlains · items) more ps) :
    Needs .tooDeep (toPlains · (x :: items)) (max calls more) (p :: ps) := by
  simp only [toPlains]
  exact h.cons hrest

theorem needs_toFields_cons {t : Text} {before : List (Text × Plain)} {rest : Nat}
    (hkey : Needs .tooDeep (k.keyText ·) calls t) (hvalue : Needs .tooDeep (v.toPlain ·) more p)
    (hrest : Needs .tooDeep (toFields · (Fields.set before t p) es) rest fs) :
    Needs .tooDeep (toFields · before ((k, v) :: es)) (max calls (max more rest)) fs := by
  simp only [toFields]
  exact hkey.bind (f := fun t room => do toFields room (Fields.set before t (← v.toPlain room)) es)
    (hvalue.bind (f := fun p room => toFields room (Fields.set before t p) es) hrest)

end Datum

namespace Json

open Nesting (Needs ite_ite_le)

variable {j : Json}

/-! ### Reading the tokens of a value -/

mutual

/-- How deeply a value is **nested**: the lists and objects around its innermost part. -/
def depth : Json → Nat
  | list items => 1 + depths items
  | object fields => 1 + fieldDepths fields
  | _ => 0

/-- How deeply the items of a list are nested. -/
def depths : List Json → Nat
  | [] => 0
  | j :: js => max (depth j) (depths js)

/-- How deeply the fields of an object are nested. -/
def fieldDepths : List (Text × Json) → Nat
  | [] => 0
  | (_, j) :: fs => max (depth j) (fieldDepths fs)

end

namespace Reader

variable {room : Nat} {around : List Frame}

/-- Tokens are read one part after the other. -/
theorem run_cons {r r' : Reader} {t : Token} (h : r.step room t = .ok r') (ts : List Token) :
    run room r (t :: ts) = run room r' ts := by
  rw [run, h]
  rfl

/-- Nothing is read after what goes wrong. -/
theorem run_cons_error {r : Reader} {t : Token} {e : DataError} (h : r.step room t = .error e)
    (ts : List Token) : run room r (t :: ts) = .error e := by
  rw [run, h]
  rfl

/-- A list or an object begins where there is room for it. -/
theorem run_begin {r r' : Reader} {t : Token}
    (h : r.step room t = Nesting.within .tooDeep (around.length + 1) room fun _ => .ok r')
    (ts : List Token) : run room r (t :: ts) =
      if around.length + 1 ≤ room then run room r' ts else .error .tooDeep := by
  rw [Nesting.within] at h
  split
  next hroom =>
    rw [if_pos hroom] at h
    exact run_cons h ts
  next hroom =>
    rw [if_neg hroom] at h
    exact run_cons_error h ts

theorem run_beginList (atStart : Bool) (ts : List Token) :
    run room (value atStart around) (.beginList :: ts) =
      if around.length + 1 ≤ room then run room (value true (.list [] :: around)) ts
      else .error .tooDeep :=
  run_begin rfl ts

theorem run_beginObject (atStart : Bool) (ts : List Token) :
    run room (value atStart around) (.beginObject :: ts) =
      if around.length + 1 ≤ room then run room (name true [] around) ts else .error .tooDeep :=
  run_begin rfl ts

/-- A value is **read as written** if its tokens complete it wherever a value is expected, provided that there
is room for what is around it and for what it holds. -/
def ReadAsWritten (j : Json) : Prop :=
  ∀ {room : Nat} {around : List Frame}, around.length ≤ room → ∀ (atStart : Bool) (ts : List Token),
    run room (value atStart around) (j.toTokens ++ ts) =
      if around.length + j.depth ≤ room then run room (after j around) ts else .error .tooDeep

/-- A value that is one token is read as written. -/
theorem readAsWritten_of_step {t : Token} (htokens : j.toTokens = [t]) (hdepth : j.depth = 0)
    (h : ∀ room atStart around, step room (value atStart around) t = .ok (after j around)) :
    ReadAsWritten j := by
  intro room around hroom atStart ts
  rw [htokens, hdepth, Nat.add_zero, if_pos hroom]
  exact run_cons (h room atStart around) ts

/-- The items after the first are added to the list. -/
theorem run_itemTokens {js : List Json} (hjs : ∀ j ∈ js, ReadAsWritten j)
    (hroom : around.length + 1 ≤ room) (j : Json) (read : List Json) (ts : List Token) :
    run room (after j (.list read :: around)) (itemTokens js ++ .endList :: ts) =
      if around.length + 1 + depths js ≤ room then
        run room (after (.list (read.reverse ++ j :: js)) around) ts
      else .error .tooDeep := by
  induction js generalizing j read with
  | nil =>
      rw [itemTokens, List.nil_append, run_cons rfl, List.reverse_cons, depths, if_pos hroom]
  | cons j' js ih =>
      have htail := ih (fun j'' hj'' => hjs j'' (List.mem_cons_of_mem j' hj'')) j' (j :: read)
      have hlength : (Frame.list (j :: read) :: around).length = around.length + 1 := rfl
      rw [itemTokens, List.cons_append, List.append_assoc, run_cons rfl,
        hjs j' List.mem_cons_self hroom, htail, hlength, ite_ite_le, Nat.add_max_add_left, depths,
        List.reverse_cons, List.append_assoc]
      rfl

/-- The fields after the first are added to the object, if their names are new. -/
theorem run_fieldTokens {fs : List (Text × Json)} (hfs : ∀ f ∈ fs, ReadAsWritten f.2)
    (hroom : around.length + 1 ≤ room) (k : Text) (j : Json) (read : List (Text × Json))
    (hnames : ((read ++ (k, j) :: fs).map Prod.fst).Nodup) (ts : List Token) :
    run room (after j (.object read k :: around)) (fieldTokens fs ++ .endObject :: ts) =
      if around.length + 1 + fieldDepths fs ≤ room then
        run room (after (.object (read ++ (k, j) :: fs)) around) ts
      else .error .tooDeep := by
  induction fs generalizing k j read with
  | nil =>
      have hset : Fields.set read k j = read ++ [(k, j)] := by
        apply Fields.set_of_notMem
        grind
      rw [fieldTokens, List.nil_append, run_cons rfl, hset, fieldDepths, if_pos hroom]
  | cons f fs ih =>
      obtain ⟨k', j'⟩ := f
      have hset : Fields.set read k j = read ++ [(k, j)] := by
        apply Fields.set_of_notMem
        grind
      have htail := ih (fun f hf => hfs f (List.mem_cons_of_mem _ hf)) k' j' (read ++ [(k, j)])
        (by rwa [List.append_assoc])
      have hlength : (Frame.object (read ++ [(k, j)]) k' :: around).length = around.length + 1 := rfl
      rw [fieldTokens, List.cons_append, List.cons_append, List.cons_append, List.append_assoc,
        run_cons rfl, run_cons rfl, run_cons rfl, hset, hfs (k', j') List.mem_cons_self hroom, htail,
        hlength, ite_ite_le, Nat.add_max_add_left, fieldDepths, List.append_assoc]
      rfl

end Reader

open Reader

/-- **The tokens of a value are read as the value.** -/
theorem WellFormed.readAsWritten (h : WellFormed j) : ReadAsWritten j := by
  induction h with
  | null | bool | int | float | text => exact readAsWritten_of_step rfl rfl fun _ _ _ => rfl
  | @list items _ ih =>
      intro room around _ b ts
      cases items with
      | nil => exact run_beginList b _
      | cons j js =>
          rw [toTokens, List.cons_append, List.append_assoc, List.append_assoc, run_beginList, depth,
            depths]
          split
          next hroom =>
            have hlength : (Frame.list [] :: around).length = around.length + 1 := rfl
            have hrest := run_itemTokens (fun j' hj' => ih j' (List.mem_cons_of_mem j hj')) hroom j [] ts
            rw [ih j List.mem_cons_self hroom, List.singleton_append, hrest, hlength, ite_ite_le,
              Nat.add_max_add_left, Nat.add_assoc]
            rfl
          next hroom => rw [if_neg (by omega)]
  | @object fields _ hnames ih =>
      intro room around _ b ts
      cases fields with
      | nil => exact run_beginObject b _
      | cons f fs =>
          obtain ⟨k, j⟩ := f
          rw [toTokens, List.cons_append, List.cons_append, List.cons_append, List.append_assoc,
            List.append_assoc, run_beginObject, depth, fieldDepths]
          split
          next hroom =>
            have hlength : (Frame.object [] k :: around).length = around.length + 1 := rfl
            have hrest := run_fieldTokens (fun f hf => ih f (List.mem_cons_of_mem _ hf)) hroom k j []
              hnames ts
            rw [run_cons rfl, run_cons rfl, ih (k, j) List.mem_cons_self hroom, List.singleton_append,
              hrest, hlength, ite_ite_le, Nat.add_max_add_left, Nat.add_assoc]
            rfl
          next hroom => rw [if_neg (by omega)]

/-- The tokens of a value are read as the value, from the beginning to the end. -/
theorem needs_read {t : Text} (h : WellFormed j) (ht : tokens t = j.toTokens) :
    Needs .tooDeep (read · t) j.depth j := by
  intro room
  have hnone : ([] : List Frame).length ≤ room := room.zero_le
  have hrun := h.readAsWritten hnone false []
  rw [List.append_nil, List.length_nil, Nat.zero_add] at hrun
  show read room t = _
  rw [read, ht, hrun]
  split <;> rfl

/-- **A written value is read back**, where there is room for what it holds. -/
theorem needs_read_write (h : WellFormed j) (pretty : Bool) :
    Needs .tooDeep (read · (write pretty j)) j.depth j := needs_read h (tokens_write h pretty)

/-! ### Values with text keys -/

/-- Whether a value is a list or an object. -/
def isCollection : Json → Bool
  | list _ | object _ => true
  | _ => false

mutual

/-- The value with text keys that a value stands for. -/
def plain : Json → Plain
  | list items => .list (plains items)
  | object fields => .object (plainFields fields)
  | j => .leaf j.toDatum

/-- The items of a list, as values with text keys. -/
def plains : List Json → List Plain
  | [] => []
  | j :: js => plain j :: plains js

/-- The fields of an object, as values with text keys. -/
def plainFields : List (Text × Json) → List (Text × Plain)
  | [] => []
  | (k, j) :: fs => (k, plain j) :: plainFields fs

end

theorem plainFields_eq_map (fs : List (Text × Json)) :
    plainFields fs = fs.map fun f => (f.1, f.2.plain) := by
  induction fs with
  | nil => rfl
  | cons f fs ih => rw [plainFields, ih, List.map_cons]

/-- The fields of an object are set as the values with text keys are. -/
theorem plainFields_set (fs : List (Text × Json)) (k : Text) (j : Json) :
    plainFields (Fields.set fs k j) = Fields.set (plainFields fs) k j.plain := by
  rw [plainFields_eq_map, plainFields_eq_map, Fields.map_set]

/-- An integer that is not too long has a literal. -/
theorem exists_integerLiteral {n : Int}
    (hn : (Double.decimalDigits n.natAbs).length ≤ Double.maxIntegerDigits) :
    ∃ s, Datum.integerLiteral n = .ok s := by
  refine ⟨String.ofList (integerText n), ?_⟩
  rw [Datum.integerLiteral, Double.integerText, if_neg (Nat.not_lt.mpr hn)]
  rfl

/-- A value is **faithful** to its plain form: it is the value of the form, the form stands for the same
data, and the data has no other form, which takes two calls for each list and object. -/
structure Faithful (j : Json) : Prop where
  ofPlain_plain : ofPlain j.plain = .ok j
  toDatum_plain : j.plain.toDatum = j.toDatum
  toPlain_toDatum : Needs .tooDeep (j.toDatum.toPlain ·) (2 * j.depth) j.plain

/-- The items of a list are faithful together. -/
theorem faithful_items {items : List Json} (h : ∀ j ∈ items, Faithful j) :
    ofPlains (plains items) = .ok items ∧ Plain.toData (plains items) = toData items ∧
      Needs .tooDeep (Datum.toPlains · (toData items)) (2 * depths items) (plains items) := by
  induction items with
  | nil => exact ⟨rfl, rfl, .pure _⟩
  | cons j js ih =>
      obtain ⟨hof, hdata, hto⟩ := ih fun j' hj' => h j' (List.mem_cons_of_mem j hj')
      have hj := h j List.mem_cons_self
      refine ⟨?_, ?_, ?_⟩
      · rw [plains, ofPlains, hj.ofPlain_plain, hof]
        rfl
      · rw [plains, Plain.toData, toData, hj.toDatum_plain, hdata]
      · exact (Datum.needs_toPlains_cons hj.toPlain_toDatum hto).of_eq (by rw [depths]; omega)

/-- The fields of an object are faithful together, if their names are different. -/
theorem faithful_fields {fs : List (Text × Json)} (h : ∀ f ∈ fs, Faithful f.2) :
    ofFields (plainFields fs) = .ok fs ∧ Plain.toEntries (plainFields fs) = toEntries fs ∧
      ∀ before : List (Text × Json), ((before ++ fs).map Prod.fst).Nodup →
        Needs .tooDeep (Datum.toFields · (plainFields before) (toEntries fs)) (2 * fieldDepths fs)
          (plainFields (before ++ fs)) := by
  induction fs with
  | nil => exact ⟨rfl, rfl, fun before _ => by rw [List.append_nil]; exact .pure _⟩
  | cons f fs ih =>
      obtain ⟨k, j⟩ := f
      obtain ⟨hof, hentries, hto⟩ := ih fun f hf => h f (List.mem_cons_of_mem _ hf)
      have hj := h (k, j) List.mem_cons_self
      refine ⟨?_, ?_, ?_⟩
      · rw [plainFields, ofFields, hj.ofPlain_plain, hof]
        rfl
      · rw [plainFields, Plain.toEntries, toEntries, hj.toDatum_plain, hentries]
      · intro before hnames
        have hset : Fields.set before k j = before ++ [(k, j)] := by
          apply Fields.set_of_notMem
          grind
        have hnext := hto (before ++ [(k, j)]) (by rwa [List.append_assoc])
        rw [List.append_assoc, ← hset, plainFields_set] at hnext
        have hkey : Needs .tooDeep ((Datum.text k).keyText ·) 0 k := .pure k
        exact (Datum.needs_toFields_cons hkey hj.toPlain_toDatum hnext).of_eq
          (by dsimp only; rw [fieldDepths]; omega)

/-- **Every well-formed value is faithful** to its plain form. -/
theorem WellFormed.faithful (h : WellFormed j) : Faithful j := by
  induction h with
  | null => exact ⟨rfl, rfl, .pure _⟩
  | bool b => exact ⟨rfl, rfl, .pure _⟩
  | @int n hn =>
      obtain ⟨s, hs⟩ := exists_integerLiteral hn
      refine ⟨?_, rfl, .pure _⟩
      show (Datum.integerLiteral n).map (fun _ => Json.int n) = .ok (Json.int n)
      rw [hs]
      rfl
  | float x => exact ⟨rfl, rfl, .pure _⟩
  | text t => exact ⟨rfl, rfl, .pure _⟩
  | list _ ih =>
      obtain ⟨hof, hdata, hto⟩ := faithful_items ih
      refine ⟨?_, congrArg Datum.list hdata, ?_⟩
      · rw [plain, ofPlain, hof]
        rfl
      · exact (Datum.needs_toPlain_list hto).of_eq (by rw [depth]; omega)
  | object _ hnames ih =>
      obtain ⟨hof, hentries, hto⟩ := faithful_fields ih
      refine ⟨?_, congrArg Datum.dict hentries, ?_⟩
      · rw [plain, ofPlain, hof]
        rfl
      · exact (Datum.needs_toPlain_dict (hto [] hnames)).of_eq (by rw [depth]; omega)

end Json

/-! ### Native values -/

namespace Datum

open Json (WellFormed)
open Nesting (Needs)

/-- A value is **native** if it is built from nothing, truth values, integers that are not too long,
floating-point numbers, texts, lists, tuples, and dictionaries whose keys can be keys. -/
inductive Native : Datum → Prop
  | null : Native null
  | bool (b : Bool) : Native (bool b)
  | int {n : Int} (hn : (Double.decimalDigits n.natAbs).length ≤ Double.maxIntegerDigits) :
      Native (int n)
  | float (x : Double) : Native (float x)
  | text (t : Text) : Native (text t)
  | list {items : List Datum} (hitems : ∀ x ∈ items, Native x) : Native (list items)
  | tuple {items : List Datum} (hitems : ∀ x ∈ items, Native x) : Native (tuple items)
  | dict {entries : Entries} (hkeys : ∀ e ∈ entries, Native e.1)
      (hhashable : ∀ e ∈ entries, e.1.canBeKey = true) (hvalues : ∀ e ∈ entries, Native e.2) :
      Native (dict entries)

/-- Whether a value is a list, a tuple or a dictionary. -/
def isCollection : Datum → Bool
  | list _ | tuple _ | dict _ => true
  | _ => false

variable {x : Datum}

theorem exists_keyTexts {items : List Datum}
    (h : ∀ x ∈ items, x.canBeKey = true → ∃ t, Needs .tooDeep (x.keyText ·) x.keyTextCalls t)
    (hkeys : canAllBeKeys items = true) :
    ∃ ts, Needs .tooDeep (keyTexts · items) (keyTextsCalls items) ts := by
  induction items with
  | nil => exact ⟨[], .pure _⟩
  | cons x xs ih =>
      rw [canAllBeKeys, Bool.and_eq_true] at hkeys
      obtain ⟨t, ht⟩ := h x List.mem_cons_self hkeys.1
      obtain ⟨ts, hts⟩ := ih (fun x' hx' => h x' (List.mem_cons_of_mem x hx')) hkeys.2
      refine ⟨t :: ts, ?_⟩
      simp only [keyTexts, keyTextsCalls]
      exact ht.cons hts

/-- **Every native key has a text**, where there is room. -/
theorem Native.exists_keyText (h : Native x) (hkey : x.canBeKey = true) :
    ∃ t, Needs .tooDeep (x.keyText ·) x.keyTextCalls t := by
  induction h with
  | null => exact ⟨_, .pure _⟩
  | bool b => exact ⟨_, .pure _⟩
  | @int n hn =>
      obtain ⟨s, hs⟩ := Json.exists_integerLiteral hn
      refine ⟨s, fun room => ?_⟩
      show (do return ((← integerLiteral n : String) : Text)) = _
      rw [hs]
      rfl
  | float x => exact ⟨_, .pure _⟩
  | text t => exact ⟨t, .pure _⟩
  | list _ _ => cases hkey
  | @tuple items _ ih =>
      obtain ⟨ts, hts⟩ := exists_keyTexts ih hkey
      refine ⟨"(" ++ Text.intercalate " " ts ++ ")", ?_⟩
      simp only [keyText, keyTextCalls]
      exact (hts.bind_pure _).within 3
  | dict _ _ _ _ _ => cases hkey

/-- A value **has a plain form**: that of a well-formed value, which is a collection if it is one, and not
nested more deeply than the calls for the form tell. -/
def HasPlain (x : Datum) : Prop :=
  ∃ j : Json, j.WellFormed ∧ Needs .tooDeep (x.toPlain ·) x.plainCalls j.plain ∧
    j.isCollection = x.isCollection ∧ 2 * j.depth ≤ x.plainCalls

theorem exists_plains {items : List Datum} (h : ∀ x ∈ items, HasPlain x) :
    ∃ js, (∀ j ∈ js, WellFormed j) ∧ Needs .tooDeep (toPlains · items) (plainsCalls items) (Json.plains js) ∧
      2 * Json.depths js ≤ plainsCalls items := by
  induction items with
  | nil => exact ⟨[], nofun, .pure _, Nat.le_refl 0⟩
  | cons x xs ih =>
      obtain ⟨j, hj, hx, -, hdepth⟩ := h x List.mem_cons_self
      obtain ⟨js, hjs, hxs, hdepths⟩ := ih fun x' hx' => h x' (List.mem_cons_of_mem x hx')
      refine ⟨j :: js, List.forall_mem_cons.mpr ⟨hj, hjs⟩, ?_, ?_⟩
      · rw [plainsCalls, Json.plains]
        exact needs_toPlains_cons hx hxs
      · rw [Json.depths, plainsCalls]
        omega

theorem fieldDepths_set_le (fs : List (Text × Json)) (k : Text) (j : Json) :
    Json.fieldDepths (Fields.set fs k j) ≤ max (Json.fieldDepths fs) j.depth := by
  induction fs with
  | nil => simp [Fields.set, Json.fieldDepths]
  | cons f fs ih =>
      obtain ⟨k', j'⟩ := f
      rw [Fields.set]
      split <;> simp only [Json.fieldDepths] <;> omega

theorem exists_plainFields {entries : Entries}
    (hkeys : ∀ e ∈ entries, ∃ t, Needs .tooDeep (e.1.keyText ·) e.1.keyTextCalls t)
    (hvalues : ∀ e ∈ entries, HasPlain e.2) {before : List (Text × Json)}
    (hbefore : ∀ f ∈ before, WellFormed f.2) (hnames : (before.map Prod.fst).Nodup) :
    ∃ fs, (∀ f ∈ fs, WellFormed f.2) ∧ (fs.map Prod.fst).Nodup ∧
      Needs .tooDeep (toFields · (Json.plainFields before) entries) (fieldsCalls entries)
        (Json.plainFields fs) ∧
      2 * Json.fieldDepths fs ≤ max (2 * Json.fieldDepths before) (fieldsCalls entries) := by
  induction entries generalizing before with
  | nil => exact ⟨before, hbefore, hnames, .pure _, Nat.le_max_left ..⟩
  | cons e entries ih =>
      obtain ⟨k, x⟩ := e
      obtain ⟨t, ht⟩ := hkeys (k, x) List.mem_cons_self
      obtain ⟨j, hj, hx, -, hdepth⟩ := hvalues (k, x) List.mem_cons_self
      have hset : ∀ f ∈ Fields.set before t j, WellFormed f.2 := by
        intro f hf
        rcases Fields.mem_set hf with hf | rfl
        · exact hbefore f hf
        · exact hj
      obtain ⟨fs, hfs, hdistinct, hfields, hdepths⟩ := ih (fun e he => hkeys e (List.mem_cons_of_mem _ he))
        (fun e he => hvalues e (List.mem_cons_of_mem _ he)) hset (Fields.nodup_set hnames t j)
      refine ⟨fs, hfs, hdistinct, ?_, ?_⟩
      · rw [Json.plainFields_set] at hfields
        exact needs_toFields_cons ht hx hfields
      · have hle := fieldDepths_set_le before t j
        rw [fieldsCalls]
        dsimp only at hdepth
        omega

/-- **Every native value has a plain form**, where there is room for it. -/
theorem Native.hasPlain (h : Native x) : HasPlain x := by
  induction h with
  | null => exact ⟨.null, .null, .pure _, rfl, Nat.le_refl 0⟩
  | bool b => exact ⟨.bool b, .bool b, .pure _, rfl, Nat.le_refl 0⟩
  | @int n hn => exact ⟨.int n, .int hn, .pure _, rfl, Nat.le_refl 0⟩
  | float x => exact ⟨.float x, .float x, .pure _, rfl, Nat.le_refl 0⟩
  | text t => exact ⟨.text t, .text t, .pure _, rfl, Nat.le_refl 0⟩
  | list _ ih =>
      obtain ⟨js, hjs, hplains, hdepths⟩ := exists_plains ih
      exact ⟨.list js, .list hjs, needs_toPlain_list hplains, rfl, by rw [Json.depth, plainCalls]; omega⟩
  | tuple _ ih =>
      obtain ⟨js, hjs, hplains, hdepths⟩ := exists_plains ih
      exact ⟨.list js, .list hjs, needs_toPlain_tuple hplains, rfl, by rw [Json.depth, plainCalls]; omega⟩
  | dict hkeys hhashable _ _ ih =>
      have hnone : ∀ f ∈ ([] : List (Text × Json)), f.2.WellFormed := nofun
      obtain ⟨fs, hfs, hnames, hfields, hdepths⟩ := exists_plainFields
        (fun e he => (hkeys e he).exists_keyText (hhashable e he)) ih hnone List.nodup_nil
      refine ⟨.object fs, .object hfs hnames, needs_toPlain_dict hfields, rfl, ?_⟩
      rw [Json.fieldDepths] at hdepths
      rw [Json.depth, plainCalls]
      omega

end Datum

/-! ### Documents -/

namespace Document

open Json (WellFormed)
open Nesting (Needs)

variable {x : Datum} {j : Json}

/-- **A text that starts with a bracket or a brace is taken for JSON**, if nothing else is known. -/
theorem detect_of_head {c : Char} (hc : c = '[' ∨ c = '\x7b') (ps : List Text.Point) :
    Format.detect none (some ⟨.char c :: ps⟩) = some .json := by
  rcases hc with rfl | rfl <;> rfl

/-- A written list or object starts with a bracket or a brace. -/
theorem exists_head (hj : j.isCollection = true) (pretty : Bool) :
    ∃ c ps, j.write pretty = ⟨.char c :: ps⟩ ∧ (c = '[' ∨ c = '\x7b') := by
  cases j with
  | list items =>
      cases items with
      | nil => exact ⟨'[', _, rfl, .inl rfl⟩
      | cons j js => exact ⟨'[', _, rfl, .inl rfl⟩
  | object fields =>
      cases fields with
      | nil => exact ⟨'\x7b', _, rfl, .inr rfl⟩
      | cons f fs => exact ⟨'\x7b', _, rfl, .inr rfl⟩
  | null | bool b | int n | float x | text t => exact Bool.noConfusion hj

/-- A value is written as its plain form is. -/
theorem needs_write {p : Plain} {calls : Nat} (hx : Needs .tooDeep (x.toPlain ·) calls p)
    (hp : Json.ofPlain p = .ok j) (pretty : Bool) :
    Needs .tooDeep (write · (some "json") pretty x) calls (j.write pretty) := by
  have hname : Format.ofName? (Text.lower ((some "json" : Option Text).getD "")).shown = some .json := by
    decide +kernel
  intro room
  show write room (some "json") pretty x = _
  have hplain := hx room
  dsimp only at hplain
  rw [write, hplain]
  split
  · simp only [bind, Except.bind, hname, hp]
    rfl
  · rfl

/-- What is read as JSON is the content. -/
theorem needs_readIn {t : Text} {calls : Nat} (h : Needs .tooDeep (Json.read · t) calls j) :
    Needs .tooDeep (readIn · .json t) calls (.plain j.toDatum) := by
  intro room
  show readIn room .json t = _
  split
  next hroom => rw [readIn, h.eq_ok hroom]
  next hroom => rw [readIn, h.eq_error (Nat.not_le.mp hroom)]

/-- **Reading undoes writing.** Every native value is written as JSON, in either layout, and what is read
from the text is the value with its keys turned into texts and its tuples into lists. The text of a
list, a tuple or a dictionary need not be said to be JSON. What is read is written as the same text. All of
this is so in every room in which the value has a plain form; in a smaller one nothing is written. -/
theorem read_write_json (room : Nat) (pretty : Bool) (fileName : Option Text) (hx : x.Native) :
    (x.plainCalls ≤ room → ∃ p t, x.toPlain room = .ok p ∧ write room (some "json") pretty x = .ok t ∧
      read room (some "json") fileName t = .ok (.plain p.toDatum) ∧
      (x.isCollection = true → read room none none t = .ok (.plain p.toDatum)) ∧
      write room (some "json") pretty p.toDatum = .ok t) ∧
    (room < x.plainCalls → write room (some "json") pretty x = .error .tooDeep) := by
  obtain ⟨j, hj, hplain, hsame, hdepth⟩ := hx.hasPlain
  obtain ⟨hof, hdata, hto⟩ := hj.faithful
  have hwritten := needs_write hplain hof pretty
  refine ⟨fun hroom => ?_, hwritten.eq_error⟩
  have hread := (needs_readIn (Json.needs_read_write hj pretty)).eq_ok (show j.depth ≤ room by omega)
  refine ⟨j.plain, j.write pretty, hplain.eq_ok hroom, hwritten.eq_ok hroom, ?_, ?_, ?_⟩
  · rw [hdata]
    exact hread
  · intro hcollection
    obtain ⟨c, ps, hwrite, hc⟩ := exists_head (hsame.trans hcollection) pretty
    have hdetect : Format.detect none (some (j.write pretty)) = some .json := by
      rw [hwrite, detect_of_head hc]
    rw [hdata]
    show readIn room ((Format.detect none (some (j.write pretty))).getD .yaml) _ = _
    rw [hdetect]
    exact hread
  · rw [hdata]
    exact (needs_write hto hof pretty).eq_ok (hdepth.trans hroom)

/-- A dictionary of which two keys have the same text, and one is a tuple. -/
def mixed : Datum :=
  .dict [(.tuple [.int 1, .bool true], .list [.int 1, .float (.finite false (2 ^ 52) (-52) (by decide)),
      .float .nan, .text "\x01\""]),
    (.int 1, .null), (.text "1", .tuple [.dict []])]

theorem native_mixed : mixed.Native := by
  have hone : (Datum.int 1).Native := .int (by decide)
  have hlist : (Datum.list [.int 1, .float (.finite false (2 ^ 52) (-52) (by decide)), .float .nan,
      .text "\x01\""]).Native := by
    refine .list fun x hx => ?_
    simp only [List.mem_cons, List.not_mem_nil, or_false] at hx
    rcases hx with rfl | rfl | rfl | rfl
    exacts [hone, .float _, .float _, .text _]
  have hkey : (Datum.tuple [.int 1, .bool true]).Native := by
    refine .tuple fun x hx => ?_
    simp only [List.mem_cons, List.not_mem_nil, or_false] at hx
    rcases hx with rfl | rfl
    exacts [hone, .bool true]
  have hnone : ∀ {P : Datum × Datum → Prop}, ∀ e ∈ ([] : Entries), P e :=
    fun e he => absurd he List.not_mem_nil
  have hempty : (Datum.tuple [.dict []]).Native :=
    .tuple fun x hx => List.mem_singleton.mp hx ▸ .dict hnone hnone hnone
  refine .dict ?_ (by decide) ?_ <;> intro e he <;>
    simp only [List.mem_cons, List.not_mem_nil, or_false] at he <;> rcases he with rfl | rfl | rfl
  exacts [hkey, hone, .text "1", hlist, .null, hempty]

/-- The written value is read without its format being named. -/
theorem read_write_json_of_mixed :
    mixed.Native ∧ mixed.plainCalls = 6 ∧
      write 6 (some "json") false mixed =
        .ok "\x7b\"(1 true)\": [1, 1.0, NaN, \"\\u0001\\\"\"], \"1\": [\x7b\x7d]\x7d" ∧
      read 6 none none "\x7b\"(1 true)\": [1, 1.0, NaN, \"\\u0001\\\"\"], \"1\": [\x7b\x7d]\x7d" =
        .ok (.plain (.dict [(.text "(1 true)", .list [.int 1,
          .float (.finite false (2 ^ 52) (-52) (by decide)), .float .nan, .text "\x01\""]),
          (.text "1", .list [.dict []])])) := by
  have hcalls : mixed.plainCalls = 6 := rfl
  obtain ⟨p, t, hplain, hwrite, -, hread, -⟩ :=
    (read_write_json 6 false none native_mixed).1 hcalls.le
  obtain rfl : _ = p := Except.ok.inj hplain
  have htext : write 6 (some "json") false mixed =
      .ok "\x7b\"(1 true)\": [1, 1.0, NaN, \"\\u0001\\\"\"], \"1\": [\x7b\x7d]\x7d" := rfl
  obtain rfl := Except.ok.inj (hwrite.symm.trans htext)
  exact ⟨native_mixed, hcalls, htext, hread rfl⟩

/-- A list in a list, and so on, to a depth. -/
def nested : Nat → Datum
  | 0 => .list []
  | n + 1 => .list [nested n]

theorem native_nested (n : Nat) : (nested n).Native := by
  induction n with
  | zero => exact .list fun x hx => absurd hx List.not_mem_nil
  | succ n ih => exact .list (List.forall_mem_singleton.mpr ih)

theorem plainCalls_nested (n : Nat) : (nested n).plainCalls = 2 * (n + 1) := by
  induction n with
  | zero => rfl
  | succ n ih =>
      rw [nested, Datum.plainCalls, Datum.plainsCalls, Datum.plainsCalls, ih]
      omega

/-- A list that is nested six hundred times is native, but it is not written. -/
theorem write_json_of_deep : (nested 599).Native ∧
    write Nesting.limit (some "json") false (nested 599) = .error .tooDeep := by
  have hnative := native_nested 599
  obtain ⟨j, hj, hplain, -⟩ := hnative.hasPlain
  have hroom : Nesting.limit < (nested 599).plainCalls := by
    rw [plainCalls_nested]
    decide
  exact ⟨hnative, (needs_write hplain hj.faithful.ofPlain_plain false).eq_error hroom⟩

end Document

end JanetEmbedding
