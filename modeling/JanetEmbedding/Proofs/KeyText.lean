import JanetEmbedding.Datum.Plain
import JanetEmbedding.Janet.Conversion
import JanetEmbedding.Proofs.Depth
import JanetEmbedding.Proofs.Inspection

/-!
# Keys as they are displayed and as they are written

A key of a mapping reaches a document in two steps: it is converted, and the text of what it became is
written. Its display takes one step, over the value itself. The two go by different rules over
different data, and this module shows that they come to one text.

## Conventions

* The interpreter writes a number in its own way, which is part of the value. It writes it **plainly** if
  that is the text in which a number without a fraction is a plain integer.
* A keyword is displayed with its colon and written as a key without it. Within a sequence it keeps the
  colon both times.
* To display a sequence takes more calls than to convert it. So there may be no room for the display of what
  has been converted.

## Main definitions

* `Janet.Value.WritesPlainly`: every number within a value is written plainly by the interpreter.
* `Janet.Value.displayCalls`: the calls that a display needs.

## Main results

* `Janet.Value.exists_shown`: what converts can be displayed where there is room, and the text of the frozen
  conversion, if that can be a key, is the display.
* `Janet.Value.keyText_convertKey`: the text of a converted key is the display of the value.
-/

namespace JanetEmbedding

namespace Text

/-! ### Texts of strings -/

theorem ofString_append (s t : String) : ofString (s ++ t) = ofString s ++ ofString t := by
  show Text.mk _ = Text.mk _
  simp [ofString, ofChars, String.toList_append]

/-- Strings set apart by a string are the texts set apart by the text. -/
theorem intercalate_ofString (separator : String) (parts : List String) :
    intercalate (ofString separator) (parts.map ofString) =
      ofString (separator.intercalate parts) := by
  simp only [intercalate, ofString, ofChars, String.toList_intercalate, List.map_map]
  induction parts with
  | nil => rfl
  | cons part parts ih =>
      cases parts with
      | nil => simp [ofString]
      | cons next parts =>
          simp only [List.map_cons, List.intercalate_cons_cons, List.map_append,
            Function.comp_apply, Text.mk.injEq] at ih ⊢
          rw [ih]
          rfl

end Text

namespace Janet.Value

open Datum
open Nesting (Needs within_eq_ok_iff within_add)

mutual

/-- The calls that the **display** of a value needs. -/
def displayCalls : Value → Nat
  | sequence _ (some items) _ => 4 + displaysCalls items
  | _ => 0

/-- The calls that the displays of some values need. -/
def displaysCalls : List Value → Nat
  | [] => 0
  | v :: vs => max (displayCalls v) (displaysCalls vs)

end

/-- The interpreter writes every number within a value **plainly**. -/
def WritesPlainly (v : Value) : Prop :=
  ∀ {x : Double} {own : NativeText}, (number x own).Part v → (number x own).nativeText = x.plainText

/-- The items of a sequence that is written plainly are. -/
theorem WritesPlainly.item {k : SequenceKind} {vs : List Value} {own : NativeText}
    (h : (sequence k (some vs) own).WritesPlainly) : ∀ v ∈ vs, v.WritesPlainly :=
  fun _ hv _ _ hx => h (.item hv hx)

/-! ### The display and the frozen conversion -/

/-- A computation that succeeds after another has a success of the other. -/
theorem exists_of_bind_ok {ε α β : Type} {m : Except ε α} {f : α → Except ε β} {b : β}
    (h : m >>= f = .ok b) : ∃ a, m = .ok a ∧ f a = .ok b := by
  cases m with
  | ok a => exact ⟨a, rfl, h⟩
  | error e => exact nomatch h

theorem exists_of_map_ok {ε α β : Type} {m : Except ε α} {f : α → β} {b : β}
    (h : m.map f = .ok b) : ∃ a, m = .ok a ∧ f a = b := by
  cases m with
  | ok a => exact ⟨a, rfl, Except.ok.inj h⟩
  | error e => exact nomatch h

/-- A sequence converts to the list of what its items convert to. -/
theorem exists_of_convert_sequence {room : Nat} {k : SequenceKind} {items : List Value}
    {own : NativeText} {x : Datum} (h : (sequence k (some items) own).convert room = .ok x) :
    3 ≤ room ∧ ∃ xs, convertItems (room - 3) items = .ok xs ∧ .list xs = x := by
  rw [convert, within_eq_ok_iff] at h
  exact h.imp_right exists_of_map_ok

/-- A mapping converts to the dictionary of what its slots convert to. -/
theorem exists_of_convert_mapping {room : Nat} {k : MappingKind} {slots : Slots} {own : NativeText}
    {x : Datum} (h : (mapping k (some slots) own).convert room = .ok x) :
    2 ≤ room ∧ ∃ es, convertSlots (room - 2) [] slots = .ok es ∧ .dict es = x := by
  rw [convert, within_eq_ok_iff] at h
  exact h.imp_right exists_of_map_ok

/-- The display of a sequence needs four calls besides those for its items. -/
theorem needs_display_sequence {k : SequenceKind} {items : List Value} {own : NativeText}
    {parts : List String} (h : Needs .tooDeep (displays · items) (displaysCalls items) parts) :
    Needs .tooDeep ((sequence k (some items) own).display ·) (sequence k (some items) own).displayCalls
      ("(" ++ " ".intercalate parts ++ ")") := by
  simp only [display, displayCalls]
  exact (h.bind_pure _).within 4

mutual

/-- **What converts can be displayed** where there is room, and if the frozen conversion can be a key, its
text is the display, provided that numbers are written plainly. -/
theorem exists_shown : ∀ {room : Nat} {v : Value} {x : Datum}, v.convert room = .ok x →
    ∃ t, Needs .tooDeep (v.display ·) v.displayCalls t ∧
      (v.WritesPlainly → x.frozen.canBeKey → x.frozen.keyText room = .ok (Text.ofString t))
  | _, .nil _, x, h => by
      obtain rfl : .null = x := by simpa [convert] using h
      exact ⟨"nil", .pure _, fun _ _ => rfl⟩
  | _, .boolean b _, x, h => by
      obtain rfl : .bool b = x := by simpa [convert] using h
      exact ⟨_, .pure _, fun _ _ => rfl⟩
  | _, .number n own, x, h => by
      obtain rfl : .float n = x := by simpa [convert] using h
      refine ⟨_, .pure _, fun hplain _ => ?_⟩
      rw [hplain .itself]
      rfl
  | _, .text k content own, x, h => by
      cases k with
      | keyword =>
          obtain rfl : .text (Text.ofString (":" ++ contentText content)) = x := by
            simpa [convert, Text.ofString_append] using h
          exact ⟨_, .pure _, fun _ _ => rfl⟩
      | string | symbol =>
          obtain rfl : .text (Text.ofString (contentText content)) = x := by
            simpa [convert] using h
          exact ⟨_, .pure _, fun _ _ => rfl⟩
  | room, .sequence k (some vs) own, x, h => by
      obtain ⟨hroom, xs, hxs, rfl⟩ := exists_of_convert_sequence h
      obtain ⟨ts, hts, htext⟩ := exists_all_shown hxs
      refine ⟨_, needs_display_sequence hts, fun hplain hkey => ?_⟩
      simp only [frozen, canBeKey] at hkey
      obtain ⟨inner, rfl⟩ := Nat.exists_eq_add_of_le hroom
      rw [Nat.add_sub_cancel_left] at htext
      simp only [frozen, keyText, within_add, htext hplain.item hkey, Text.ofString_append,
        ← Text.intercalate_ofString]
      rfl
  | _, .sequence _ none _, _, h => nomatch h
  | _, .mapping _ (some _) _, x, h => by
      obtain ⟨-, es, -, rfl⟩ := exists_of_convert_mapping h
      exact ⟨_, .pure _, fun _ hkey => nomatch hkey⟩
  | _, .mapping _ none _, _, h => nomatch h
  | _, .other k own, x, h => by
      obtain rfl : .text (Text.ofString (other k own).nativeText) = x := by
        simpa [convert] using h
      exact ⟨_, .pure _, fun _ _ => rfl⟩

/-- The same for the items of a sequence. -/
theorem exists_all_shown : ∀ {room : Nat} {vs : List Value} {xs : List Datum},
    convertItems room vs = .ok xs →
    ∃ ts, Needs .tooDeep (displays · vs) (displaysCalls vs) ts ∧ ((∀ v ∈ vs, v.WritesPlainly) →
      canAllBeKeys (allFrozen xs) → keyTexts room (allFrozen xs) = .ok (ts.map Text.ofString))
  | _, [], xs, h => by
      obtain rfl : [] = xs := by simpa [convertItems] using h
      exact ⟨[], .pure _, fun _ _ => rfl⟩
  | _, v :: vs, xs, h => by
      obtain ⟨x, hx, h⟩ := exists_of_bind_ok h
      obtain ⟨rest, hrest, h⟩ := exists_of_bind_ok h
      obtain rfl : x :: rest = xs := Except.ok.inj h
      obtain ⟨t, ht, htext⟩ := exists_shown hx
      obtain ⟨ts, hts, htexts⟩ := exists_all_shown hrest
      refine ⟨t :: ts, ht.cons hts, fun hplain hkeys => ?_⟩
      simp only [allFrozen, canAllBeKeys, Bool.and_eq_true] at hkeys
      rw [allFrozen, keyTexts, htext (hplain v List.mem_cons_self) hkeys.1,
        htexts (fun w hw => hplain w (List.mem_cons_of_mem _ hw)) hkeys.2]
      rfl

end

/-! ### Keys -/

/-- The colon that a keyword is displayed with. -/
def colon (v : Value) : String := if v.kind = .text .keyword then ":" else ""

variable {room : Nat}

/-- A key that is no keyword becomes its frozen conversion, or its display if that cannot be a key. -/
theorem convertKey_of_convert {v : Value} {x : Datum} (hkind : v.kind ≠ .text .keyword)
    (h : v.convert room = .ok x) : v.convertKey room =
      if x.frozen.canBeKey then .ok x.frozen
      else (v.display room).map fun t => .text (Text.ofString t) := by
  have hkey : v.convertKey room = v.keyOf room x := by rw [convertKey, h]; rfl
  rw [hkey]
  cases v with
  | nil _ | boolean _ _ | number _ _ | other _ _ =>
      obtain rfl := Except.ok.inj h
      rfl
  | text k content _ =>
      cases k with
      | keyword => exact absurd rfl hkind
      | string | symbol =>
          obtain rfl := Except.ok.inj h
          rfl
  | sequence _ items _ =>
      cases items with
      | none => exact nomatch h
      | some vs =>
          obtain ⟨-, xs, -, rfl⟩ := exists_of_convert_sequence h
          simp only [keyOf]
          cases (sequence _ (some vs) _).display room <;> rfl
  | mapping _ slots _ =>
      cases slots with
      | none => exact nomatch h
      | some slots =>
          obtain ⟨-, es, -, rfl⟩ := exists_of_convert_mapping h
          rfl

/-- **A key is written as it is displayed.** The key that a value becomes has a text, which is the
display of the value; that of a keyword lacks the colon. Only where there is no room for the display does a
value that converts become no key. -/
theorem keyText_convertKey {v : Value} {x : Datum} (hplain : v.WritesPlainly)
    (hx : v.convert room = .ok x) : ∃ written,
      Needs .tooDeep (v.display ·) v.displayCalls (v.colon ++ written) ∧
      ((∃ key, v.convertKey room = .ok key ∧ key.keyText room = .ok (Text.ofString written)) ∨
        room < v.displayCalls ∧ v.convertKey room = .error .tooDeep) := by
  by_cases hkind : v.kind = .text .keyword
  · obtain ⟨content, own, rfl⟩ : ∃ content own, v = text .keyword content own := by
      cases v <;> simp_all [kind]
    exact ⟨contentText content, .pure _, .inl ⟨_, rfl, rfl⟩⟩
  · obtain ⟨t, ht, htext⟩ := exists_shown hx
    have hcolon : v.colon ++ t = t := by simp [colon, hkind]
    refine ⟨t, hcolon.symm ▸ ht, ?_⟩
    rw [convertKey_of_convert hkind hx]
    by_cases hkey : x.frozen.canBeKey
    · exact .inl ⟨x.frozen, by rw [if_pos hkey], htext hplain hkey⟩
    · rw [if_neg hkey]
      by_cases hroom : v.displayCalls ≤ room
      · exact .inl ⟨.text (Text.ofString t), by rw [ht.eq_ok hroom]; rfl, rfl⟩
      · rw [Nat.not_le] at hroom
        exact .inr ⟨hroom, by rw [ht.eq_error hroom]; rfl⟩

/-- Written `[nil :a @[-0] @{…}]`: a key that cannot stay a tuple, since there is a table in it. -/
theorem keyText_convertKey_of_tuple :
    let v := sequence .tuple (some
      [nil .usual, text .keyword (some [97]) .usual,
        sequence .array (some [number (.zero true) (.bytes [48])]) .usual,
        mapping .table (some [(boolean true .usual, nil .usual)]) (.bytes [64, 123, 125])]) .usual
    v.WritesPlainly ∧ ∃ x key written, v.convert 8 = .ok x ∧ v.convertKey 8 = .ok key ∧
      key.keyText 8 = .ok (Text.ofString written) ∧ v.display 8 = .ok (v.colon ++ written) := by
  intro v
  have hplain : v.WritesPlainly := by
    intro x own hx
    change Part _ (sequence _ (some _) _) at hx
    rcases hx with _ | ⟨hy, hx⟩
    simp only [List.mem_cons, List.not_mem_nil, or_false] at hy
    rcases hy with rfl | rfl | rfl | rfl
    · exact nomatch hx
    · exact nomatch hx
    · rcases hx with _ | ⟨hy, hx⟩
      obtain rfl := List.mem_singleton.mp hy
      cases hx
      decide +kernel
    · rcases hx with _ | _ | ⟨hy, hx⟩ | ⟨hy, hx⟩ <;>
        · obtain ⟨rfl, rfl⟩ := Prod.mk.inj (List.mem_singleton.mp hy)
          exact nomatch hx
  have hx : ∃ x, v.convert 8 = .ok x := ⟨_, rfl⟩
  obtain ⟨x, hx⟩ := hx
  obtain ⟨written, hdisplay, ⟨key, hkey, htext⟩ | ⟨hroom, -⟩⟩ := keyText_convertKey hplain hx
  · exact ⟨hplain, x, key, written, hx, hkey, htext, hdisplay.eq_ok (by decide)⟩
  · exact absurd hroom (by decide)

end Janet.Value

end JanetEmbedding
