import JanetEmbedding.Proofs.Walk
import Mathlib.Data.List.TakeWhile

/-!
# Values that are written in characters alone

The interpreter hands over characters, so no surrogate stands in what its values are converted to, nor in
the JSON that is written of that. A terminal shows it as it is, and whoever reads what was shown, with the
line feed behind it, reads the value.

## Conventions

* A text is **lettered** if it has no surrogates. It can then be shown without anything being replaced.

## Main definitions

* `Datum.Lettered`: data all of whose texts are lettered.
* `Datum.HeldBy`: data that a text holds, as JSON.

## Main results

* `Janet.Value.lettered_of_convert`: what is converted is lettered.
* `Datum.Converted.lettered_toPlain`: so is its plain form.
* `Json.WellFormed.lettered_points`: what is written of lettered data is lettered.
* `Janet.Value.exists_line`: the JSON of a conversion is shown as it is, and read back from its line.
-/

namespace JanetEmbedding

namespace Text

open Point (char)

/-- Points are **lettered** if there is no surrogate among them. -/
def Lettered (ps : List Point) : Prop := ∀ p ∈ ps, p.char?.isSome = true

variable {p : Point} {ps qs : List Point}

@[simp] theorem lettered_nil : Lettered [] := nofun

@[simp] theorem lettered_cons : Lettered (p :: ps) ↔ p.char?.isSome = true ∧ Lettered ps :=
  List.forall_mem_cons

@[simp] theorem lettered_append : Lettered (ps ++ qs) ↔ Lettered ps ∧ Lettered qs :=
  List.forall_mem_append

@[simp] theorem lettered_map_char (cs : List Char) : Lettered (cs.map char) := by
  intro p hp
  obtain ⟨c, -, rfl⟩ := List.mem_map.mp hp
  rfl

@[simp] theorem lettered_ofString (s : String) : Lettered (ofString s).points := lettered_map_char _

/-- What is lettered is the text of a string. -/
theorem Lettered.exists_ofString {t : Text} (h : Lettered t.points) : ∃ s, t = ofString s := by
  obtain ⟨cs, hcs⟩ := exists_chars (List.dropWhile_eq_nil_iff.mpr h)
  exact ⟨String.ofList cs, by rw [ofString_ofList, ofChars, ← hcs]⟩

theorem lettered_intercalate {separator : Text} {parts : List Text} (hseparator : Lettered separator.points)
    (hparts : ∀ t ∈ parts, Lettered t.points) : Lettered (intercalate separator parts).points := by
  simp only [intercalate]
  induction parts with
  | nil => exact lettered_nil
  | cons part parts ih =>
      obtain ⟨hpart, hrest⟩ := List.forall_mem_cons.mp hparts
      cases parts with
      | nil => simpa using hpart
      | cons next parts =>
          simpa [List.intercalate_cons_cons, hpart, hseparator] using ih hrest

end Text

/-! ### Data -/

namespace Datum

/-- Data that is **lettered**: of what a conversion can come to, that all of whose texts are. -/
inductive Lettered : Datum → Prop
  | null : Lettered null
  | bool (b : Bool) : Lettered (bool b)
  | float (x : Double) : Lettered (float x)
  | text {t : Text} (ht : Text.Lettered t.points) : Lettered (text t)
  | list {items : List Datum} (hitems : ∀ x ∈ items, Lettered x) : Lettered (list items)
  | tuple {items : List Datum} (hitems : ∀ x ∈ items, Lettered x) : Lettered (tuple items)
  | dict {entries : Entries} (hkeys : ∀ e ∈ entries, Lettered e.1)
      (hvalues : ∀ e ∈ entries, Lettered e.2) : Lettered (dict entries)

variable {room : Nat} {x : Datum}

theorem Lettered.ofString (s : String) : Lettered (.text (.ofString s)) := .text (Text.lettered_ofString s)

/-- Freezing leaves the texts as they are. -/
theorem Lettered.frozen (h : Lettered x) : Lettered x.frozen := by
  induction h with
  | null => exact .null
  | bool b => exact .bool b
  | float x => exact .float x
  | text ht => exact .text ht
  | tuple hitems => exact .tuple hitems
  | dict hkeys hvalues => exact .dict hkeys hvalues
  | list _ ih =>
      refine .tuple fun y hy => ?_
      obtain ⟨x, hx, rfl⟩ := mem_allFrozen hy
      exact ih x hx

theorem lettered_keyTexts {items : List Datum} {ts : List Text} (hkeys : canAllBeKeys items = true)
    (h : ∀ x ∈ items, x.canBeKey = true → ∀ t, x.keyText room = .ok t → Text.Lettered t.points)
    (hts : keyTexts room items = .ok ts) : ∀ t ∈ ts, Text.Lettered t.points := by
  induction items generalizing ts with
  | nil =>
      obtain rfl : [] = ts := Except.ok.inj hts
      exact nofun
  | cons x xs ih =>
      rw [canAllBeKeys, Bool.and_eq_true] at hkeys
      obtain ⟨t, ht, hts⟩ := Janet.Value.exists_of_bind_ok hts
      obtain ⟨rest, hrest, hts⟩ := Janet.Value.exists_of_bind_ok hts
      obtain rfl : t :: rest = ts := Except.ok.inj hts
      exact List.forall_mem_cons.mpr ⟨h x List.mem_cons_self hkeys.1 t ht,
        ih hkeys.2 (fun y hy => h y (List.mem_cons_of_mem x hy)) hrest⟩

/-- **The text of a lettered key is lettered.** -/
theorem Lettered.keyText {t : Text} (h : Lettered x) (hkey : x.canBeKey = true)
    (ht : x.keyText room = .ok t) : Text.Lettered t.points := by
  induction h generalizing room t with
  | null | bool | float =>
      obtain rfl := Except.ok.inj ht
      exact Text.lettered_ofString _
  | text hlettered =>
      obtain rfl := Except.ok.inj ht
      exact hlettered
  | @tuple items _ ih =>
      rw [Datum.keyText, Nesting.within_eq_ok_iff] at ht
      obtain ⟨ts, hts, ht⟩ := Janet.Value.exists_of_bind_ok ht.2
      obtain rfl := Except.ok.inj ht
      have hparts := lettered_keyTexts hkey (fun x hx hkey t => ih x hx hkey) hts
      simpa using Text.lettered_intercalate (Text.lettered_ofString " ") hparts
  | list | dict => cases hkey

end Datum

namespace Janet.Value

open Datum (Lettered)

variable {room : Nat}

theorem lettered_of_display {v : Value} {k : Datum}
    (hk : Except.map Datum.text (do return Text.ofString (← v.display room)) = .ok k) : Lettered k := by
  obtain ⟨t, ht, rfl⟩ := exists_of_map_ok hk
  obtain ⟨s, -, ht⟩ := exists_of_bind_ok ht
  obtain rfl := Except.ok.inj ht
  exact .ofString s

/-- The key that a value becomes is lettered. -/
theorem lettered_of_keyOf {v : Value} {x k : Datum} (hx : Lettered x) (hk : v.keyOf room x = .ok k) :
    Lettered k := by
  unfold keyOf at hk
  split at hk
  · obtain rfl := Except.ok.inj hk
    exact .ofString _
  · dsimp only at hk
    split at hk
    · obtain rfl := Except.ok.inj hk
      exact hx.frozen
    · exact lettered_of_display hk
  · exact lettered_of_display hk
  · obtain rfl := Except.ok.inj hk
    exact hx

mutual

/-- **What is converted is lettered.** -/
theorem lettered_of_convert : ∀ {room : Nat} {v : Value} {x : Datum}, v.convert room = .ok x → Lettered x
  | _, .nil _, _, h => Except.ok.inj h ▸ .null
  | _, .boolean b _, _, h => Except.ok.inj h ▸ .bool b
  | _, .number x _, _, h => Except.ok.inj h ▸ .float x
  | _, .text k _ _, _, h => by
      cases k <;> obtain rfl := Except.ok.inj h <;> exact .text (by simp)
  | _, .sequence _ (some vs) _, _, h => by
      obtain ⟨-, xs, hxs, rfl⟩ := exists_of_convert_sequence h
      exact .list (lettered_of_convertItems hxs)
  | _, .sequence _ none _, _, h => nomatch h
  | _, .mapping _ (some slots) _, _, h => by
      obtain ⟨-, es, hes, rfl⟩ := exists_of_convert_mapping h
      have hentries := lettered_of_convertSlots (by simp) hes
      exact .dict (fun e he => (hentries e he).1) fun e he => (hentries e he).2
  | _, .mapping _ none _, _, h => nomatch h
  | _, .other _ _, _, h => Except.ok.inj h ▸ .ofString _

theorem lettered_of_convertItems : ∀ {room : Nat} {vs : List Value} {xs : List Datum},
    convertItems room vs = .ok xs → ∀ x ∈ xs, Lettered x
  | _, [], xs, h => by
      obtain rfl : [] = xs := Except.ok.inj h
      exact nofun
  | _, v :: vs, xs, h => by
      obtain ⟨x, hx, h⟩ := exists_of_bind_ok h
      obtain ⟨rest, hrest, h⟩ := exists_of_bind_ok h
      obtain rfl : x :: rest = xs := Except.ok.inj h
      exact List.forall_mem_cons.mpr ⟨lettered_of_convert hx, lettered_of_convertItems hrest⟩

theorem lettered_of_convertSlots : ∀ {room : Nat} {entries : Entries} {slots : Slots} {es : Entries},
    (∀ e ∈ entries, Lettered e.1 ∧ Lettered e.2) → convertSlots room entries slots = .ok es →
      ∀ e ∈ es, Lettered e.1 ∧ Lettered e.2
  | _, entries, [], es, hentries, h => by
      obtain rfl : entries = es := Except.ok.inj h
      exact hentries
  | _, entries, (key, value) :: slots, es, hentries, h => by
      rw [convertSlots] at h
      split at h
      · exact lettered_of_convertSlots hentries h
      · obtain ⟨x, hx, h⟩ := exists_of_bind_ok h
        obtain ⟨k, hinside, h⟩ := exists_of_bind_ok h
        rw [Nesting.within_eq_ok_iff] at hinside
        obtain ⟨y, hy, hk⟩ := exists_of_bind_ok hinside.2
        have hkey := lettered_of_keyOf (lettered_of_convert hy) hk
        refine lettered_of_convertSlots (fun e he => ?_) h
        rcases Entries.mem_insert he with he | ⟨hvalue, hname⟩
        · exact hentries e he
        · rw [hvalue]
          refine ⟨?_, lettered_of_convert hx⟩
          rcases hname with heq | ⟨e', he', heq⟩
          · rwa [heq]
          · rw [heq]
            exact (hentries e' he').1

end

end Janet.Value

/-! ### Plain forms -/

namespace Datum

variable {room : Nat} {x : Datum}

theorem lettered_toPlains {items : List Datum} {ps : List Plain}
    (h : ∀ x ∈ items, ∀ p, x.toPlain room = .ok p → p.toDatum.Lettered)
    (hps : toPlains room items = .ok ps) :
    ∀ y ∈ Plain.toData ps, Lettered y := by
  induction items generalizing ps with
  | nil =>
      obtain rfl : [] = ps := Except.ok.inj hps
      exact nofun
  | cons x xs ih =>
      obtain ⟨p, hp, hps⟩ := Janet.Value.exists_of_bind_ok hps
      obtain ⟨rest, hrest, hps⟩ := Janet.Value.exists_of_bind_ok hps
      obtain rfl : p :: rest = ps := Except.ok.inj hps
      exact List.forall_mem_cons.mpr ⟨h x List.mem_cons_self p hp,
        ih (fun y hy => h y (List.mem_cons_of_mem x hy)) hrest⟩

/-- Setting a field keeps the entries lettered. -/
theorem lettered_set {fs : List (Text × Plain)} {k : Text} {p : Plain} (hk : Text.Lettered k.points)
    (hp : p.toDatum.Lettered) (hfs : ∀ e ∈ Plain.toEntries fs, Lettered e.1 ∧ Lettered e.2) :
    ∀ e ∈ Plain.toEntries (Fields.set fs k p), Lettered e.1 ∧ Lettered e.2 := by
  induction fs with
  | nil => exact List.forall_mem_cons.mpr ⟨⟨.text hk, hp⟩, nofun⟩
  | cons f fs ih =>
      obtain ⟨k', p'⟩ := f
      obtain ⟨hhead, htail⟩ := List.forall_mem_cons.mp hfs
      rw [Fields.set]
      split
      · exact List.forall_mem_cons.mpr ⟨⟨hhead.1, hp⟩, htail⟩
      · exact List.forall_mem_cons.mpr ⟨hhead, ih htail⟩

theorem lettered_toFields {entries : Entries} {before fs : List (Text × Plain)}
    (hkeys : ∀ e ∈ entries, ∀ t, e.1.keyText room = .ok t → Text.Lettered t.points)
    (hvalues : ∀ e ∈ entries, ∀ p, e.2.toPlain room = .ok p → p.toDatum.Lettered)
    (hbefore : ∀ e ∈ Plain.toEntries before, Lettered e.1 ∧ Lettered e.2)
    (hfs : toFields room before entries = .ok fs) :
    ∀ e ∈ Plain.toEntries fs, Lettered e.1 ∧ Lettered e.2 := by
  induction entries generalizing before with
  | nil =>
      obtain rfl : before = fs := Except.ok.inj hfs
      exact hbefore
  | cons e entries ih =>
      obtain ⟨k, x⟩ := e
      obtain ⟨t, ht, hfs⟩ := Janet.Value.exists_of_bind_ok hfs
      obtain ⟨p, hp, hfs⟩ := Janet.Value.exists_of_bind_ok hfs
      have hset := lettered_set (hkeys (k, x) List.mem_cons_self t ht)
        (hvalues (k, x) List.mem_cons_self p hp) hbefore
      exact ih (fun e he => hkeys e (List.mem_cons_of_mem _ he))
        (fun e he => hvalues e (List.mem_cons_of_mem _ he)) hset hfs

/-- **The plain form of what is converted is lettered.** -/
theorem Converted.lettered_toPlain {p : Plain} (h : Converted x) (hx : Lettered x)
    (hp : x.toPlain room = .ok p) : p.toDatum.Lettered := by
  induction h generalizing room p with
  | null | bool | float | text =>
      obtain rfl := Except.ok.inj hp
      exact hx
  | list _ ih =>
      obtain ⟨-, ps, hps, rfl⟩ := exists_of_toPlain_list hp
      cases hx with
      | list hitems => exact .list (lettered_toPlains (fun x hx p hp => ih x hx (hitems x hx) hp) hps)
  | @dict entries hparts _ ih =>
      obtain ⟨-, fs, hfs, rfl⟩ := exists_of_toPlain_dict hp
      cases hx with
      | dict hkeys hvalues =>
          have hfields := lettered_toFields
            (fun e he t ht => (hkeys e he).keyText (hparts e he).1.canBeKey ht)
            (fun e he p hp => ih e he (hvalues e he) hp) (by simp [Plain.toEntries]) hfs
          exact .dict (fun e he => (hfields e he).1) fun e he => (hfields e he).2

end Datum

/-! ### What is written -/

namespace Json

variable {j : Json}

open Text (Lettered)

@[simp] theorem lettered_plainPoints (cs : List Char) : Lettered (plainPoints cs) :=
  Text.lettered_map_char cs

@[simp] theorem lettered_edge (s : Spacing) : Lettered s.edge := lettered_plainPoints _

@[simp] theorem lettered_between (s : Spacing) : Lettered s.between := by
  unfold Spacing.between
  split <;> simp

@[simp] theorem lettered_colonPoints : Lettered colonPoints := lettered_plainPoints _

/-- A quoted text is lettered if the text is. -/
theorem lettered_quote {t : Text} (h : Lettered t.points) : Lettered (quote t) := by
  have hpoints : Lettered (t.points.flatMap quotePoint) := by
    intro q hq
    obtain ⟨p, hp, hq⟩ := List.mem_flatMap.mp hq
    cases p with
    | char c => exact Text.lettered_map_char _ q hq
    | surrogate n => cases h _ hp
  simp [quote, hpoints]

theorem lettered_pointsOfItems {js : List Json}
    (h : ∀ j ∈ js, j.toDatum.Lettered → ∀ s, Lettered (points s j))
    (hjs : ∀ x ∈ toData js, x.Lettered) (s : Spacing) : Lettered (pointsOfItems s js) := by
  induction js with
  | nil => exact Text.lettered_nil
  | cons j js ih =>
      obtain ⟨hj, hrest⟩ := List.forall_mem_cons.mp hjs
      simp [pointsOfItems, h j List.mem_cons_self hj s,
        ih (fun j' hj' => h j' (List.mem_cons_of_mem j hj')) hrest]

theorem lettered_pointsOfFields {fs : List (Text × Json)}
    (h : ∀ f ∈ fs, f.2.toDatum.Lettered → ∀ s, Lettered (points s f.2))
    (hnames : ∀ e ∈ toEntries fs, e.1.Lettered) (hvalues : ∀ e ∈ toEntries fs, e.2.Lettered)
    (s : Spacing) : Lettered (pointsOfFields s fs) := by
  induction fs with
  | nil => exact Text.lettered_nil
  | cons f fs ih =>
      obtain ⟨k, j⟩ := f
      obtain ⟨hname, hnames⟩ := List.forall_mem_cons.mp hnames
      obtain ⟨hvalue, hvalues⟩ := List.forall_mem_cons.mp hvalues
      cases hname with
      | text hk =>
          simp [pointsOfFields, lettered_quote hk, h (k, j) List.mem_cons_self hvalue s,
            ih (fun f hf => h f (List.mem_cons_of_mem _ hf)) hnames hvalues]

/-- **What is written of lettered data is lettered**, in either layout. -/
theorem WellFormed.lettered_points (h : WellFormed j) (hj : j.toDatum.Lettered) (s : Spacing) :
    Lettered (points s j) := by
  induction h generalizing s with
  | null => exact lettered_plainPoints _
  | bool b => cases b <;> exact lettered_plainPoints _
  | int => exact lettered_plainPoints _
  | float x => exact lettered_plainPoints _
  | text t =>
      cases hj with
      | text ht => exact lettered_quote ht
  | @list items _ ih =>
      cases hj with
      | list hitems =>
          cases items with
          | nil => exact lettered_plainPoints ['[', ']']
          | cons j js =>
              obtain ⟨hhead, htail⟩ := List.forall_mem_cons.mp hitems
              have hpoints := lettered_pointsOfItems
                (fun j' hj' => ih j' (List.mem_cons_of_mem j hj')) htail s.inner
              simp [points, ih j List.mem_cons_self hhead, hpoints]
  | @object fields _ _ ih =>
      cases hj with
      | dict hnames hvalues =>
          cases fields with
          | nil => exact lettered_plainPoints ['\x7b', '\x7d']
          | cons f fs =>
              obtain ⟨k, j⟩ := f
              obtain ⟨hname, hnames⟩ := List.forall_mem_cons.mp hnames
              obtain ⟨hvalue, hvalues⟩ := List.forall_mem_cons.mp hvalues
              have hpoints := lettered_pointsOfFields
                (fun f hf => ih f (List.mem_cons_of_mem _ hf)) hnames hvalues s.inner
              cases hname with
              | text hk =>
                  simp [points, lettered_quote hk, ih (k, j) List.mem_cons_self hvalue, hpoints]

/-- An atom does not end in a line feed. -/
theorem IsAtom.getLast?_ne {cs : List Char} (h : IsAtom cs j) :
    (plainPoints cs).getLast? ≠ some (.char '\n') := by
  intro hlast
  rw [plainPoints, List.getLast?_map] at hlast
  obtain ⟨c, hc, heq⟩ := Option.map_eq_some_iff.mp hlast
  obtain rfl := Text.Point.char.inj heq
  cases h.chars _ (List.mem_of_getLast? hc)

/-- **What is written does not end in a line feed.** -/
theorem WellFormed.getLast?_ne (h : WellFormed j) (s : Spacing) :
    (points s j).getLast? ≠ some (.char '\n') := by
  have hclosed : ∀ (ps : List Text.Point) (c : Char), c ≠ '\n' →
      (ps ++ [Text.Point.char c]).getLast? ≠ some (.char '\n') := by
    intro ps c hc
    rw [List.getLast?_concat]
    exact fun heq => hc (Text.Point.char.inj (Option.some.inj heq))
  cases h with
  | null => exact hclosed (plainPoints ['n', 'u', 'l']) 'l' (by decide)
  | bool b =>
      cases b
      · exact hclosed (plainPoints ['f', 'a', 'l', 's']) 'e' (by decide)
      · exact hclosed (plainPoints ['t', 'r', 'u']) 'e' (by decide)
  | int hn => exact (isAtom_integerText hn).getLast?_ne
  | float x => exact (isAtom_textWith x).getLast?_ne
  | text t => exact hclosed _ '"' (by decide)
  | @list items =>
      cases items with
      | nil => exact hclosed (plainPoints ['[']) ']' (by decide)
      | cons j js => exact hclosed _ ']' (by decide)
  | @object fields =>
      cases fields with
      | nil => exact hclosed (plainPoints ['\x7b']) '\x7d' (by decide)
      | cons f fs => exact hclosed _ '\x7d' (by decide)

/-- **A written value is read back from its line**, in either layout. -/
theorem WellFormed.read_line (h : WellFormed j) (pretty : Bool) :
    Nesting.Needs .tooDeep (read · (write pretty j ++ "\n")) j.depth j := by
  have hfeed : SetApart [.char '\n'] := setApart_cons (by decide) []
  have hblank : tokensFrom .between [.char '\n'] = [] := rfl
  have htokens : tokens (write pretty j ++ "\n") = j.toTokens := by
    have hcut := h.cutAsWritten ⟨pretty, 0⟩ _ hfeed
    rw [hblank, List.append_nil] at hcut
    exact hcut
  exact needs_read h htokens

end Json

open Nesting (Needs)

/-- A text **holds** data, as JSON, if what is read of it is the data with its keys turned into texts and its
tuples into lists. There is room to read it wherever there is room for that form of the data. -/
def Datum.HeldBy (x : Datum) (t : Text) : Prop :=
  ∃ (p : Plain) (j : Json), Needs .tooDeep (x.toPlain ·) x.plainCalls p ∧
    Needs .tooDeep (Json.read · t) j.depth j ∧ j.depth ≤ x.plainCalls ∧ j.toDatum = p.toDatum

/-- **The JSON of a conversion is shown as it is, and read back from its line**: where there is room for it,
it is characters alone, the last of which is no line feed, and with a line feed behind it it holds what was
converted. -/
theorem Janet.Value.exists_line {room : Nat} {v : Value} {x : Datum} (hx : v.convert room = .ok x)
    (pretty : Bool) : ∃ s,
      Needs .tooDeep (Document.write · (some "json") pretty x) x.plainCalls (Text.ofString s) ∧
      s.toList.getLast? ≠ some '\n' ∧ x.HeldBy (Text.ofString (s ++ "\n")) := by
  have hconverted := converted_of_convert hx
  obtain ⟨j, hj, hplain, -, hdepth⟩ := hconverted.native.hasPlain
  obtain ⟨hof, hdata, -⟩ := hj.faithful
  have hlettered := hconverted.lettered_toPlain (lettered_of_convert hx)
    (hplain.eq_ok (Nat.le_refl x.plainCalls))
  rw [hdata] at hlettered
  obtain ⟨s, hs⟩ := Text.Lettered.exists_ofString (t := j.write pretty) (hj.lettered_points hlettered _)
  have hread := hj.read_line pretty
  rw [hs] at hread
  refine ⟨s, hs ▸ Document.needs_write hplain hof pretty, fun hlast => ?_, j.plain, j, hplain, ?_, by omega,
    hdata.symm⟩
  · have hlast' : (j.write pretty).points.getLast? = some (.char '\n') := by
      rw [hs, Text.ofString, Text.points_ofChars, List.getLast?_map, hlast]
      rfl
    exact hj.getLast?_ne _ hlast'
  · rw [Text.ofString_append]
    exact hread

end JanetEmbedding
