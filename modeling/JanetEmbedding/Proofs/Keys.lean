import JanetEmbedding.Proofs.EmptySlots
import JanetEmbedding.Proofs.KeyText
import JanetEmbedding.Proofs.Rounding

/-!
# Keys that stay apart

The slots of a mapping become the entries of a dictionary one after the other, and two slots come to one
entry if their keys become one key. Numbers, truth values, texts and tuples of those become keys of their
own form, but a dictionary knows numbers only by their value, and to it truth values are numbers. So no slot
is lost if the keys differ with true counted as one and false as zero, and some slot is lost otherwise.

## Conventions

* A **plain key** is a number, a truth value, a string, or a tuple of plain keys. Not-a-number is left out,
  since it is equal to nothing.
* Two plain keys are equal as values of the interpreter if they are of one type and have the same number,
  truth value or text, or items that are equal one by one.
* The value of a slot is converted with two more calls open than the mapping, and its key with three.

## Main definitions

* `Janet.Value.PlainKey`: the plain keys.
* `Janet.Value.equals`: whether two plain keys are equal.
* `Janet.Value.counted`: a key with its truth values counted as numbers.

## Main results

* `Datum.sameKey_float`: two numbers are one key if they are equal as numbers.
* `Entries.length_insertAll_eq_iff`: when each of several pairs has an entry of its own.
* `Janet.Value.sameKey_asKey`: when two plain keys become one.
* `Janet.Value.convert_keeps_entries`: when each slot has an entry of its own, and what is found there.
-/

namespace JanetEmbedding

/-- Each element of a list has one that it is related to, if the lists are related one by one. -/
theorem exists_of_forall₂ {α β : Type} {R : α → β → Prop} {as : List α} {bs : List β}
    (h : List.Forall₂ R as bs) {a : α} (ha : a ∈ as) : ∃ b ∈ bs, R a b := by
  induction h with
  | nil => cases ha
  | @cons _ b _ _ hb _ ih =>
      rcases List.mem_cons.mp ha with rfl | ha
      · exact ⟨b, List.mem_cons_self, hb⟩
      · exact (ih ha).imp fun _ h => ⟨List.mem_cons_of_mem _ h.1, h.2⟩

/-! ### Numbers as keys -/

namespace Double

theorem canonical_one : Canonical (2 ^ 52) (-52) := by decide

/-- The number that a truth value counts as. -/
def ofBool (b : Bool) : Double := if b then .finite false (2 ^ 52) (-52) canonical_one else zero false

variable {s t : Bool} {m n : Nat} {e f k : Int} {hm : Canonical m e} {hn : Canonical n f}

theorem integral?_finite : (finite s m e hm).integral? =
    if m * 2 ^ e.toNat % 2 ^ (-e).toNat = 0 then
      some (if s then -((m * 2 ^ e.toNat / 2 ^ (-e).toNat : Nat) : Int)
        else ((m * 2 ^ e.toNat / 2 ^ (-e).toNat : Nat) : Int))
    else none := rfl

/-- A double stands for an integer of its magnitude and its sign. -/
theorem exact_of_integral? (h : (finite s m e hm).integral? = some k) :
    k.natAbs * 2 ^ (-e).toNat = m * (1 * 2 ^ e.toNat) ∧ (k ≠ 0 → s = decide (k < 0)) := by
  rw [integral?_finite] at h
  split at h
  next hdvd =>
    have hquot := Nat.div_mul_cancel (Nat.dvd_of_mod_eq_zero hdvd)
    generalize m * 2 ^ e.toNat / 2 ^ (-e).toNat = q at h hquot
    obtain rfl := Option.some.inj h
    rw [Nat.one_mul]
    cases s with
    | true => exact ⟨by simpa using hquot, fun hne => by simp at hne ⊢; omega⟩
    | false => exact ⟨by simpa using hquot, fun _ => by simp⟩
  next => cases h

/-- A double that stands for zero is one of the two zeros. -/
theorem significand_of_integral?_zero (h : (finite s m e hm).integral? = some 0) : m = 0 := by
  obtain ⟨hvalue, -⟩ := exact_of_integral? h
  have hpow := Nat.two_pow_pos e.toNat
  simpa [hpow.ne'] using hvalue.symm

/-- A double that stands for an integer other than zero is the one that the integer rounds to. -/
theorem ofRatio_of_integral? (h : (finite s m e hm).integral? = some k) (hk : k ≠ 0) :
    ofRatio (decide (k < 0)) k.natAbs 1 = finite s m e hm := by
  obtain ⟨hvalue, hsign⟩ := exact_of_integral? h
  have hne : m ≠ 0 := by
    rintro rfl
    have hpos := Nat.mul_pos (Int.natAbs_pos.mpr hk) (Nat.two_pow_pos (-e).toNat)
    rw [hvalue, Nat.zero_mul] at hpos
    exact Nat.lt_irrefl 0 hpos
  rw [← hsign hk]
  exact ofRatio_exact s hm hne Nat.one_pos hvalue

@[simp] theorem integral?_zero (hm : Canonical 0 e) : (finite s 0 e hm).integral? = some 0 := by
  simp [integral?_finite]

/-- Doubles that stand for one integer are equal as numbers. -/
theorem sameNumber_of_integral? {x y : Double} (hx : x.integral? = some k) (hy : y.integral? = some k) :
    x.sameNumber y = true := by
  cases x with
  | nan | infinite => cases hx
  | finite s m e hm =>
      cases y with
      | nan | infinite => cases hy
      | finite t n f hn =>
          by_cases hk : k = 0
          · subst hk
            obtain rfl := significand_of_integral?_zero hx
            obtain rfl := significand_of_integral?_zero hy
            rfl
          · have heq := (ofRatio_of_integral? hx hk).symm.trans (ofRatio_of_integral? hy hk)
            obtain ⟨rfl, rfl, rfl⟩ := Double.finite.inj heq
            simp [sameNumber]

/-- Doubles that are equal as numbers stand for the same integer, if for any. -/
theorem integral?_eq_of_sameNumber {x y : Double} (h : x.sameNumber y = true) :
    x.integral? = y.integral? := by
  cases x with
  | nan => cases h
  | infinite s =>
      cases y with
      | nan | finite => cases h
      | infinite t => rfl
  | finite s m e hm =>
      cases y with
      | nan | infinite => cases h
      | finite t n f hn =>
          simp only [sameNumber, Bool.or_eq_true, Bool.and_eq_true, beq_iff_eq] at h
          rcases h with ⟨rfl, rfl⟩ | ⟨⟨rfl, rfl⟩, rfl⟩
          · rw [integral?_zero, integral?_zero]
          · rfl

theorem sameNumber_self {x : Double} (hx : x ≠ nan) : x.sameNumber x = true := by
  cases x with
  | nan => exact absurd rfl hx
  | infinite | finite => simp [sameNumber]

end Double

namespace Datum

/-- What is compared by its number is compared by nothing else. -/
theorem sameScalar_of_numberKey? {a b : Datum} {m n : NumberKey} (ha : a.numberKey? = some m)
    (hb : b.numberKey? = some n) : a.sameScalar b = m.same n := by
  simp only [sameScalar, ha, hb]

/-- **Two numbers are one key if they are equal as numbers.** -/
theorem sameKey_float (x y : Double) : (float x).sameKey (float y) = x.sameNumber y := by
  have hscalar : (float x).sameScalar (float y) = x.sameNumber y := by
    rw [sameScalar_of_numberKey? rfl rfl]
    cases hsame : x.sameNumber y with
    | true =>
        rw [Double.integral?_eq_of_sameNumber hsame]
        cases y.integral? with
        | none => exact hsame
        | some k => exact beq_self_eq_true k
    | false =>
        cases hx : x.integral? with
        | none =>
            cases y.integral? with
            | none => exact hsame
            | some l => rfl
        | some k =>
            cases hy : y.integral? with
            | none => rfl
            | some l =>
                refine beq_false_of_ne fun hkl => ?_
                subst hkl
                rw [Double.sameNumber_of_integral? hx hy] at hsame
                cases hsame
  rw [sameKey, hscalar]
  nofun

/-- A truth value is the key that its number is. -/
theorem numberKey?_ofBool (b : Bool) : (float (.ofBool b)).numberKey? = (bool b).numberKey? := by
  have hone : (Double.ofBool b).integral? = some (if b then 1 else 0) := by
    cases b <;> decide +kernel
  simp only [numberKey?, hone]

/-- What is compared by the same number is compared alike with every key. -/
theorem sameKey_congr {a b : Datum} {m : NumberKey} (ha : a.numberKey? = some m)
    (hb : b.numberKey? = some m) (c : Datum) : a.sameKey c = b.sameKey c ∧ c.sameKey a = c.sameKey b := by
  have hleft : ∀ {x : Datum}, x.numberKey? = some m → x.sameKey c = x.sameScalar c := by
    intro x hx
    rw [sameKey]
    rintro xs _ rfl -
    cases hx
  have hright : ∀ {x : Datum}, x.numberKey? = some m → c.sameKey x = c.sameScalar x := by
    intro x hx
    rw [sameKey]
    rintro _ ys - rfl
    cases hx
  rw [hleft ha, hleft hb, hright ha, hright hb]
  cases hc : c.numberKey? with
  | none => simp only [sameScalar, ha, hb, hc, and_self]
  | some n =>
      rw [sameScalar_of_numberKey? ha hc, sameScalar_of_numberKey? hb hc,
        sameScalar_of_numberKey? hc ha, sameScalar_of_numberKey? hc hb]
      exact ⟨rfl, rfl⟩

end Datum

/-! ### Inserting several pairs -/

namespace Entries

variable {α : Type} {es pairs : List (Datum × α)} {k : Datum} {v : α}

/-- Pairs inserted one after the other. -/
def insertAll (es pairs : List (Datum × α)) : List (Datum × α) :=
  pairs.foldl (fun es (k, v) => insert es k v) es

/-- **No key again**: none of several keys is the same as an earlier one. -/
def Apart (pairs : List (Datum × α)) : Prop := pairs.Pairwise fun p q => p.1.sameKey q.1 = false

/-- A new key goes to the end. -/
theorem insert_of_new (h : ∀ e ∈ es, e.1.sameKey k = false) (v : α) :
    insert es k v = es ++ [(k, v)] := by
  induction es with
  | nil => rfl
  | cons e es ih =>
      obtain ⟨k', v'⟩ := e
      have hne : k'.sameKey k = false := h (k', v') List.mem_cons_self
      rw [insert, hne, ih fun e he => h e (List.mem_cons_of_mem _ he)]
      rfl

/-- A key that is there adds no entry. -/
theorem length_insert_of_mem {e : Datum × α} (he : e ∈ es) (hsame : e.1.sameKey k = true) (v : α) :
    (insert es k v).length = es.length := by
  induction es with
  | nil => cases he
  | cons e' es ih =>
      obtain ⟨k', v'⟩ := e'
      rw [insert]
      split
      · rfl
      next hne =>
        rcases List.mem_cons.mp he with rfl | he
        · exact absurd hsame hne
        · rw [List.length_cons, ih he, List.length_cons]

theorem length_insertAll_le (es pairs : List (Datum × α)) :
    (insertAll es pairs).length ≤ es.length + pairs.length := by
  induction pairs generalizing es with
  | nil => exact Nat.le_refl _
  | cons p pairs ih =>
      have hinsert := length_insert_le es p.1 p.2
      have hrest := ih (insert es p.1 p.2)
      show (insertAll (insert es p.1 p.2) pairs).length ≤ es.length + (pairs.length + 1)
      omega

/-- **New keys go to the end**, in their order. -/
theorem insertAll_of_apart (hapart : Apart pairs)
    (hnew : ∀ e ∈ es, ∀ p ∈ pairs, e.1.sameKey p.1 = false) : insertAll es pairs = es ++ pairs := by
  induction pairs generalizing es with
  | nil => exact (List.append_nil es).symm
  | cons p pairs ih =>
      obtain ⟨hp, hpairs⟩ := List.pairwise_cons.mp hapart
      show insertAll (insert es p.1 p.2) pairs = _
      rw [insert_of_new fun e he => hnew e he p List.mem_cons_self, ih hpairs ?_, List.append_assoc]
      · rfl
      · intro e he q hq
        rcases List.mem_append.mp he with he | he
        · exact hnew e he q (List.mem_cons_of_mem p hq)
        · obtain rfl := List.mem_singleton.mp he
          exact hp q hq

/-- **Each of several pairs has an entry of its own** exactly if no key comes again. -/
theorem length_insertAll_eq_iff (es pairs : List (Datum × α)) :
    (insertAll es pairs).length = es.length + pairs.length ↔
      (∀ e ∈ es, ∀ p ∈ pairs, e.1.sameKey p.1 = false) ∧ Apart pairs := by
  constructor
  · intro hlength
    induction pairs generalizing es with
    | nil => exact ⟨fun _ _ => nofun, List.Pairwise.nil⟩
    | cons p pairs ih =>
        change (insertAll (insert es p.1 p.2) pairs).length = es.length + (pairs.length + 1) at hlength
        have hnew : ∀ e ∈ es, e.1.sameKey p.1 = false := by
          intro e he
          refine Bool.eq_false_iff.mpr fun hsame => ?_
          have hinsert := length_insert_of_mem he hsame p.2
          have hle := length_insertAll_le (insert es p.1 p.2) pairs
          omega
        have hnext : (insertAll (es ++ [p]) pairs).length = (es ++ [p]).length + pairs.length := by
          rw [insert_of_new hnew] at hlength
          rw [hlength, List.length_append, List.length_singleton]
          omega
        obtain ⟨hold, hapart⟩ := ih (es ++ [p]) hnext
        have hall : ∀ e ∈ es, ∀ q ∈ p :: pairs, e.1.sameKey q.1 = false := fun e he =>
          List.forall_mem_cons.mpr ⟨hnew e he, hold e (List.mem_append_left _ he)⟩
        refine ⟨hall, ?_⟩
        exact List.pairwise_cons.mpr
          ⟨hold p (List.mem_append_right _ List.mem_cons_self), hapart⟩
  · rintro ⟨hnew, hapart⟩
    rw [insertAll_of_apart hapart hnew, List.length_append]

/-- A key that comes once is found with its value. -/
theorem find?_of_apart (hapart : Apart es) (hmem : (k, v) ∈ es) (hself : k.sameKey k = true) :
    find? es k = some v := by
  induction es with
  | nil => cases hmem
  | cons e es ih =>
      obtain ⟨he, hes⟩ := List.pairwise_cons.mp hapart
      rcases List.mem_cons.mp hmem with rfl | hlater
      · rw [find?, if_pos hself]
      · rw [find?, he (k, v) hlater, ih hes hlater]
        rfl

end Entries

/-! ### Plain keys -/

namespace Janet.Value

/-- The **plain keys**: numbers, truth values, strings, and tuples of those at any depth. -/
inductive PlainKey : Value → Prop
  | number {x : Double} (hx : x ≠ .nan) (own : NativeText) : PlainKey (number x own)
  | boolean (b : Bool) (own : NativeText) : PlainKey (boolean b own)
  | string (content : Option (List UInt8)) (own : NativeText) : PlainKey (text .string content own)
  | tuple {items : List Value} (hitems : ∀ v ∈ items, PlainKey v) (own : NativeText) :
      PlainKey (sequence .tuple (some items) own)

mutual

/-- Whether two keys are **equal** as values of the interpreter. -/
def equals : Value → Value → Bool
  | boolean b _, boolean c _ => b == c
  | number x _, number y _ => x.sameNumber y
  | text k bs _, text l cs _ => k == l && contentText bs == contentText cs
  | sequence .tuple (some vs) _, sequence .tuple (some ws) _ => allEqual vs ws
  | _, _ => false

/-- Whether the items of two tuples are equal one by one. -/
def allEqual : List Value → List Value → Bool
  | [], [] => true
  | v :: vs, w :: ws => equals v w && allEqual vs ws
  | _, _ => false

end

mutual

/-- A key with its truth values **counted** as the numbers one and zero. -/
def counted : Value → Value
  | boolean b own => number (.ofBool b) own
  | sequence k (some items) own => sequence k (some (allCounted items)) own
  | v => v

/-- The items of a tuple with their truth values counted as numbers. -/
def allCounted : List Value → List Value
  | [] => []
  | v :: vs => counted v :: allCounted vs

end

mutual

/-- The key of a dictionary that a plain key becomes. -/
def asKey : Value → Datum
  | boolean b _ => .bool b
  | number x _ => .float x
  | text _ content _ => .text (contentText content)
  | sequence _ (some items) _ => .tuple (allAsKeys items)
  | _ => .null

/-- The keys that the items of a tuple become. -/
def allAsKeys : List Value → List Datum
  | [] => []
  | v :: vs => asKey v :: allAsKeys vs

end

/-- Texts are one key if they are equal. -/
theorem sameKey_text (s t : String) :
    (Datum.text (Text.ofString s)).sameKey (.text (Text.ofString t)) = (s == t) := by
  have hscalar : (Datum.text (Text.ofString s)).sameKey (.text (Text.ofString t)) =
      (Text.ofString s == Text.ofString t) := by
    rw [Datum.sameKey]
    · rfl
    · nofun
  rw [hscalar, Bool.eq_iff_iff, beq_iff_eq, beq_iff_eq, Text.ofString_inj]

/-- A truth value is compared with every key by its number. -/
theorem sameKey_bool (b : Bool) (c : Datum) :
    (Datum.bool b).sameKey c = (Datum.float (.ofBool b)).sameKey c ∧
      c.sameKey (.bool b) = c.sameKey (.float (.ofBool b)) :=
  Datum.sameKey_congr rfl (Datum.numberKey?_ofBool b) c

variable {v w : Value}

/-- A number is compared with a plain key as with the key counted. -/
theorem sameKey_number (x : Double) (own : NativeText) (hw : w.PlainKey) :
    (Datum.float x).sameKey w.asKey = (number x own).equals w.counted ∧
      w.asKey.sameKey (.float x) = w.counted.equals (number x own) := by
  cases hw with
  | number _ own' => exact ⟨Datum.sameKey_float .., Datum.sameKey_float ..⟩
  | boolean b own' =>
      rw [asKey, (sameKey_bool b _).1, (sameKey_bool b _).2]
      exact ⟨Datum.sameKey_float .., Datum.sameKey_float ..⟩
  | string content own' => exact ⟨rfl, rfl⟩
  | tuple hitems own' => exact ⟨rfl, rfl⟩

/-- Tuples are compared item by item. -/
theorem sameKeys_allAsKeys {vs ws : List Value}
    (hvs : ∀ v ∈ vs, ∀ {w : Value}, w.PlainKey → v.asKey.sameKey w.asKey = v.counted.equals w.counted)
    (hws : ∀ w ∈ ws, w.PlainKey) :
    Datum.sameKeys (allAsKeys vs) (allAsKeys ws) = allEqual (allCounted vs) (allCounted ws) := by
  induction vs generalizing ws with
  | nil => cases ws <;> rfl
  | cons v vs ih =>
      cases ws with
      | nil => rfl
      | cons w ws =>
          rw [allAsKeys, allAsKeys, Datum.sameKeys, hvs v List.mem_cons_self (hws w List.mem_cons_self),
            ih (fun v hv => hvs v (List.mem_cons_of_mem _ hv)) fun w hw => hws w (List.mem_cons_of_mem _ hw)]
          rfl

/-- **Two plain keys become one key** if they are equal with their truth values counted as numbers. -/
theorem sameKey_asKey (hv : v.PlainKey) (hw : w.PlainKey) :
    v.asKey.sameKey w.asKey = v.counted.equals w.counted := by
  induction hv generalizing w with
  | number hx own => exact (sameKey_number _ own hw).1
  | boolean b own =>
      rw [asKey, (sameKey_bool b _).1]
      exact (sameKey_number _ own hw).1
  | string content own =>
      cases hw with
      | number _ own' => exact (sameKey_number _ own' (.string content own)).2
      | boolean b own' =>
          rw [asKey.eq_1, (sameKey_bool b _).2]
          exact (sameKey_number _ own' (.string content own)).2
      | string content' own' => exact sameKey_text ..
      | tuple _ _ => rfl
  | tuple hitems own ih =>
      cases hw with
      | number _ own' => exact (sameKey_number _ own' (.tuple hitems own)).2
      | boolean b own' =>
          rw [asKey.eq_1, (sameKey_bool b _).2]
          exact (sameKey_number _ own' (.tuple hitems own)).2
      | string _ _ => rfl
      | tuple hitems' own' => exact sameKeys_allAsKeys ih hitems'

/-- A plain key is found again: it is the same as itself. -/
theorem sameKey_self (hv : v.PlainKey) : v.asKey.sameKey v.asKey = true := by
  induction hv with
  | number hx own => exact (Datum.sameKey_float ..).trans (Double.sameNumber_self hx)
  | boolean b own => cases b <;> rfl
  | string content own => exact (sameKey_text ..).trans (beq_self_eq_true _)
  | @tuple items hitems own ih =>
      show Datum.sameKeys (allAsKeys items) (allAsKeys items) = true
      clear hitems
      induction items with
      | nil => rfl
      | cons w ws ihws =>
          rw [allAsKeys, Datum.sameKeys, ih w List.mem_cons_self,
            ihws fun w hw => ih w (List.mem_cons_of_mem _ hw)]
          rfl

/-! ### Conversion -/

/-- The items of a tuple are frozen to the keys that they become. -/
theorem allFrozen_of_convertItems {room : Nat} {vs : List Value} {xs : List Datum}
    (h : ∀ v ∈ vs, ∀ x, v.convert room = .ok x → x.frozen = v.asKey ∧ v.asKey.canBeKey = true)
    (hxs : convertItems room vs = .ok xs) :
    Datum.allFrozen xs = allAsKeys vs ∧ Datum.canAllBeKeys (allAsKeys vs) = true := by
  induction vs generalizing xs with
  | nil =>
      obtain rfl : [] = xs := Except.ok.inj hxs
      exact ⟨rfl, rfl⟩
  | cons v vs ih =>
      obtain ⟨x, hx, hxs⟩ := exists_of_bind_ok hxs
      obtain ⟨rest, hrest, hxs⟩ := exists_of_bind_ok hxs
      obtain rfl : x :: rest = xs := Except.ok.inj hxs
      obtain ⟨hfrozen, hkey⟩ := h v List.mem_cons_self x hx
      obtain ⟨hallFrozen, hkeys⟩ := ih (fun w hw => h w (List.mem_cons_of_mem _ hw)) hrest
      refine ⟨?_, ?_⟩
      · rw [Datum.allFrozen, hfrozen, hallFrozen, allAsKeys]
      · rw [allAsKeys, Datum.canAllBeKeys, hkey, hkeys]
        rfl

/-- A plain key is frozen to the key that it becomes. -/
theorem frozen_of_convert {room : Nat} {x : Datum} (hv : v.PlainKey) (hx : v.convert room = .ok x) :
    x.frozen = v.asKey ∧ v.asKey.canBeKey = true := by
  induction hv generalizing room x with
  | number | boolean | string =>
      obtain rfl := Except.ok.inj hx
      exact ⟨rfl, rfl⟩
  | tuple hitems own ih =>
      obtain ⟨-, xs, hxs, rfl⟩ := exists_of_convert_sequence hx
      obtain ⟨hfrozen, hkeys⟩ := allFrozen_of_convertItems (fun v hv x hx => ih v hv hx) hxs
      exact ⟨congrArg Datum.tuple hfrozen, hkeys⟩

/-- **A plain key becomes a key of its own form.** -/
theorem convertKey_of_plainKey {room : Nat} {key : Datum} (hv : v.PlainKey)
    (h : v.convertKey room = .ok key) : key = v.asKey := by
  obtain ⟨x, hx, -⟩ := exists_of_bind_ok h
  obtain ⟨hfrozen, hkey⟩ := frozen_of_convert hv hx
  have hkind : v.kind ≠ .text .keyword := by
    cases hv <;> nofun
  rw [convertKey_of_convert hkind hx, hfrozen, if_pos hkey] at h
  exact (Except.ok.inj h).symm

/-- A slot **becomes** an entry, where there is room for its key. -/
def Becomes (room : Nat) (slot : Value × Value) (e : Datum × Datum) : Prop :=
  slot.1.convertKey room = .ok e.1 ∧ slot.2.convert (room + 1) = .ok e.2

/-- Slots in use are converted to entries that are inserted one after the other. -/
theorem exists_convertSlots {room : Nat} {slots : Slots}
    (hslots : ∀ slot ∈ live slots, ∃ e, Becomes room slot e) :
    ∃ pairs : Entries, List.Forall₂ (Becomes room) (live slots) pairs ∧
      ∀ es, convertSlots (room + 1) es slots = .ok (Entries.insertAll es pairs) := by
  induction slots with
  | nil => exact ⟨[], .nil, fun _ => rfl⟩
  | cons slot slots ih =>
      obtain ⟨key, value⟩ := slot
      by_cases hnil : key.isNil = true
      · have hlive : live ((key, value) :: slots) = live slots := by simp [live, hnil]
        rw [hlive] at hslots ⊢
        obtain ⟨pairs, hpairs, hall⟩ := ih hslots
        exact ⟨pairs, hpairs, fun es => by rw [convertSlots, if_pos hnil, hall]⟩
      · have hlive : live ((key, value) :: slots) = (key, value) :: live slots := by simp [live, hnil]
        rw [hlive] at hslots ⊢
        obtain ⟨⟨e, he⟩, hslots⟩ := List.forall_mem_cons.mp hslots
        obtain ⟨pairs, hpairs, hall⟩ := ih hslots
        refine ⟨e :: pairs, .cons he hpairs, fun es => ?_⟩
        have hkey : (Nesting.within .tooDeep 1 (room + 1) fun room => do
            key.keyOf room (← key.convert room)) = .ok e.1 := by
          rw [Nat.add_comm, Nesting.within_add]
          exact he.1
        rw [convertSlots, if_neg hnil, he.2, hkey]
        exact hall _

/-- The entries are apart as the keys of the slots are. -/
theorem apart_iff {room : Nat} {slots : Slots} {pairs : Entries}
    (hkeys : ∀ slot ∈ slots, slot.1.PlainKey) (h : List.Forall₂ (Becomes room) slots pairs) :
    Entries.Apart pairs ↔ slots.Pairwise fun s t => s.1.counted.equals t.1.counted = false := by
  have hfst : pairs.map Prod.fst = slots.map fun slot => slot.1.asKey := by
    induction h with
    | nil => rfl
    | cons hslot _ ih =>
        obtain ⟨hkey, hkeys⟩ := List.forall_mem_cons.mp hkeys
        rw [List.map_cons, List.map_cons, convertKey_of_plainKey hkey hslot.1, ih hkeys]
  have hapart : Entries.Apart pairs ↔
      slots.Pairwise fun s t => s.1.asKey.sameKey t.1.asKey = false := by
    have hmap : Entries.Apart pairs ↔
        (pairs.map Prod.fst).Pairwise fun a b => a.sameKey b = false := by
      rw [List.pairwise_map]
      rfl
    rw [hmap, hfst, List.pairwise_map]
  rw [hapart]
  refine List.Pairwise.iff_of_mem fun hs ht => ?_
  rw [sameKey_asKey (hkeys _ hs) (hkeys _ ht)]

/-- **No slot is lost while keys stay apart.** Let the keys of the slots in use be plain keys, and let these
slots become entries, each for itself. The mapping converts to a dictionary that has an entry for each of
them exactly if no two keys are equal with their truth values counted as numbers. Then the entries are the
slots in their order, and the key of each slot is found with the slot's own value. -/
theorem convert_keeps_entries {room : Nat} {k : MappingKind} {slots : Slots} {own : NativeText}
    (hkeys : ∀ slot ∈ live slots, slot.1.PlainKey)
    (hbecomes : ∀ slot ∈ live slots, ∃ e, Becomes room slot e) :
    ∃ entries : Entries, (mapping k (some slots) own).convert (room + 3) = .ok (.dict entries) ∧
      (entries.length = (live slots).length ↔
        (live slots).Pairwise fun s t => s.1.counted.equals t.1.counted = false) ∧
      (((live slots).Pairwise fun s t => s.1.counted.equals t.1.counted = false) →
        List.Forall₂ (Becomes room) (live slots) entries ∧
        ∀ slot ∈ live slots, ∃ key x, slot.1.convertKey room = .ok key ∧
          slot.2.convert (room + 1) = .ok x ∧ Entries.find? entries key = some x) := by
  obtain ⟨pairs, hpairs, hslots⟩ := exists_convertSlots hbecomes
  have hapart := apart_iff hkeys hpairs
  have hlength := Entries.length_insertAll_eq_iff [] pairs
  have hconvert : (mapping k (some slots) own).convert (room + 3) =
      .ok (.dict (Entries.insertAll [] pairs)) := by
    rw [convert, show room + 3 = 2 + (room + 1) by omega, Nesting.within_add, hslots]
    rfl
  refine ⟨Entries.insertAll [] pairs, hconvert, ?_, fun hdiffer => ?_⟩
  · rw [← hapart, hpairs.length_eq]
    simpa using hlength
  · have hsame : Entries.insertAll [] pairs = pairs :=
      Entries.insertAll_of_apart (hapart.mpr hdiffer) nofun
    rw [hsame]
    refine ⟨hpairs, fun slot hslot => ?_⟩
    obtain ⟨⟨key, x⟩, he, hkey, hx⟩ := exists_of_forall₂ hpairs hslot
    have hself : key.sameKey key = true := by
      obtain rfl : key = slot.1.asKey := convertKey_of_plainKey (hkeys slot hslot) hkey
      exact sameKey_self (hkeys slot hslot)
    exact ⟨key, x, hkey, hx, Entries.find?_of_apart (hapart.mpr hdiffer) he hself⟩

/-- The keys `[true "x"]`, `"1"`, `1` and `[1 []]`, with an empty slot among them that cannot be viewed. -/
theorem convert_keeps_entries_of_four :
    let one := number (.ofBool true) .usual
    let slots : Slots :=
      [(sequence .tuple (some [boolean true .usual, ofString "x"]) .usual, ofString "a"),
        (nil .usual, sequence .array none .usual), (ofString "1", ofString "b"), (one, nil .usual),
        (sequence .tuple (some [one, sequence .tuple (some []) .usual]) .usual, ofString "d")]
    (∀ slot ∈ live slots, slot.1.PlainKey) ∧
      (∀ slot ∈ live slots, ∃ e, Becomes 6 slot e) ∧
      ∃ entries : Entries, (mapping .table (some slots) .usual).convert 9 = .ok (.dict entries) ∧
        entries.length = 4 ∧ Entries.find? entries (.float (.ofBool true)) = some .null := by
  intro one slots
  have hone : one.PlainKey := .number (by decide) .usual
  have hkeys : ∀ slot ∈ live slots, slot.1.PlainKey := by
    have hfirst : ∀ v ∈ [boolean true .usual, ofString "x"], v.PlainKey :=
      List.forall_mem_cons.mpr ⟨.boolean _ _, List.forall_mem_singleton.mpr (.string _ _)⟩
    have hnone : ∀ v ∈ ([] : List Value), v.PlainKey := fun _ hv => absurd hv List.not_mem_nil
    have hlast : ∀ v ∈ [one, sequence .tuple (some []) .usual], v.PlainKey :=
      List.forall_mem_cons.mpr ⟨hone, List.forall_mem_singleton.mpr (.tuple hnone _)⟩
    exact List.forall_mem_cons.mpr ⟨.tuple hfirst _, List.forall_mem_cons.mpr ⟨.string _ _,
      List.forall_mem_cons.mpr ⟨hone, List.forall_mem_singleton.mpr (.tuple hlast _)⟩⟩⟩
  have hbecomes : ∀ slot ∈ live slots, ∃ e, Becomes 6 slot e :=
    List.forall_mem_cons.mpr ⟨⟨(_, _), rfl, rfl⟩, List.forall_mem_cons.mpr ⟨⟨(_, _), rfl, rfl⟩,
      List.forall_mem_cons.mpr ⟨⟨(_, _), rfl, rfl⟩,
        List.forall_mem_singleton.mpr ⟨(_, _), rfl, rfl⟩⟩⟩⟩
  have hdiffer : (live slots).Pairwise fun s t => s.1.counted.equals t.1.counted = false := by
    decide +kernel
  obtain ⟨entries, hentries, hlength, hfound⟩ :=
    @convert_keeps_entries 6 .table slots .usual hkeys hbecomes
  obtain ⟨key, x, hkey, hx, hfind⟩ := (hfound hdiffer).2 (one, nil .usual) (by simp [slots, live, isNil])
  obtain rfl := Except.ok.inj hkey
  obtain rfl := Except.ok.inj hx
  exact ⟨hkeys, hbecomes, entries, hentries, hlength.mpr hdiffer, hfind⟩

/-- **True and one** are different keys of a mapping, but one of its two slots is lost. -/
theorem convert_of_true_and_one :
    let slots : Slots :=
      [(boolean true .usual, ofString "a"), (number (.ofBool true) .usual, ofString "b")]
    (∀ slot ∈ live slots, slot.1.PlainKey) ∧ (live slots).length = 2 ∧
      ((live slots).Pairwise fun s t => s.1.equals t.1 = false) ∧
      (mapping .table (some slots) .usual).convert Nesting.limit = .ok (.dict [(.bool true, .text "b")]) := by
  intro slots
  refine ⟨?_, rfl, by decide +kernel, by rfl⟩
  exact List.forall_mem_cons.mpr
    ⟨.boolean _ _, List.forall_mem_singleton.mpr (.number (by decide) _)⟩

end Janet.Value

end JanetEmbedding
