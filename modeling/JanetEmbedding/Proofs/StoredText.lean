import JanetEmbedding.Janet.Value
import JanetEmbedding.Proofs.Decoding

/-!
# Stored texts

The interpreter stores the length of a text beside its bytes, and only so many bytes are read. They may
end within a character. What is left of it is then one malformed piece, however many of its bytes are
there, and nothing else of the text is touched.

## Main definitions

* `Utf8.LongestStart`: the longest start of a text that a number of bytes has room for.
* `Utf8.Cuts`: a number of bytes ends within a character of a text.
* `Janet.Value.ReadAs`: what a stored text is read as.

## Main results

* `Utf8.decode_take_encode`: what is read of a text of which only the first bytes are there.
* `Utf8.decode_append`: well-formed bytes are read apart from what stands behind them.
* `Janet.Value.readAs_stored`: what stored texts are read as.
-/

namespace JanetEmbedding

namespace Utf8

open String (utf8EncodeChar)

/-! ### Well-formed bytes -/

theorem encode_cons (c : Char) (cs : List Char) :
    encode (c :: cs) = utf8EncodeChar c ++ encode cs :=
  List.flatMap_cons

theorem length_encode (s : String) : (encode s.toList).length = s.utf8ByteSize := by
  conv_rhs => rw [← String.size_toByteArray, ← String.ofList_toList (s := s),
    String.toByteArray_ofList, List.utf8Encode, List.size_toByteArray]
  rfl

theorem toList_decodeString (bytes : List UInt8) : (decodeString bytes).toList = decode bytes :=
  String.toList_ofList

/-- Well-formed bytes are those of some text. -/
theorem exists_eq_encode {bytes : List UInt8} (h : bytes.toByteArray.IsValidUTF8) :
    ∃ cs, bytes = encode cs := by
  obtain ⟨cs, hcs⟩ := h
  exact ⟨cs, List.toByteArray_inj.mp hcs⟩

/-- The characters that are encoded are read first, and then what stands behind them. -/
theorem Reads.encode_append {rest : List UInt8} {ds : List Char} (h : Reads rest ds) :
    ∀ cs : List Char, Reads (encode cs ++ rest) (cs ++ ds)
  | [] => h
  | c :: cs => by
      rw [encode_cons, List.append_assoc]
      exact .char c (h.encode_append cs)

theorem decode_encode_append (cs : List Char) (rest : List UInt8) :
    decode (encode cs ++ rest) = cs ++ decode rest :=
  decode_eq_iff.mpr ((reads_decode rest).encode_append cs)

theorem decode_encode (cs : List Char) : decode (encode cs) = cs := by
  simpa using decode_encode_append cs []

/-- **Well-formed bytes are read apart** from what stands behind them. -/
theorem decode_append {a b : List UInt8} (h : a.toByteArray.IsValidUTF8) :
    decode (a ++ b) = decode a ++ decode b := by
  obtain ⟨cs, rfl⟩ := exists_eq_encode h
  rw [decode_encode_append, decode_encode]

/-! ### Where bytes end -/

/-- The **longest start** of a text that a number of bytes has room for. -/
structure LongestStart (n : Nat) (cs start : List Char) : Prop where
  isPrefix : start <+: cs
  fits : (encode start).length ≤ n
  longest : ∀ other, other <+: cs → (encode other).length ≤ n → other.length ≤ start.length

/-- A number of bytes **cuts** a character of a text. -/
def Cuts (n : Nat) (cs : List Char) : Prop :=
  ∃ before c after, cs = before ++ c :: after ∧
    (encode before).length < n ∧ n < (encode (before ++ [c])).length

theorem LongestStart.unique {n : Nat} {cs p q : List Char} (hp : LongestStart n cs p)
    (hq : LongestStart n cs q) : p = q := by
  have hpq := List.prefix_of_prefix_length_le hp.isPrefix hq.isPrefix
    (hq.longest p hp.isPrefix hp.fits)
  exact hpq.eq_of_length_le (hp.longest q hq.isPrefix hq.fits)

theorem length_encode_le {p q : List Char} (h : p <+: q) :
    (encode p).length ≤ (encode q).length := by
  obtain ⟨more, rfl⟩ := h
  rw [encode_append, List.length_append]
  exact Nat.le_add_right _ _

theorem length_encode_lt (start : List Char) (c : Char) :
    (encode start).length < (encode (start ++ [c])).length := by
  have hpos := c.utf8Size_pos
  rw [encode_append, List.length_append, encode_cons, List.length_append,
    String.length_utf8EncodeChar]
  omega

/-- A start is the longest if there is no room for the character behind it. -/
theorem longestStart_append {n : Nat} {start after : List Char} (hfits : (encode start).length ≤ n)
    (hnext : ∀ c ∈ after.head?, n < (encode (start ++ [c])).length) :
    LongestStart n (start ++ after) start := by
  refine ⟨List.prefix_append _ _, hfits, fun other hother hroom => ?_⟩
  by_contra! hlonger
  obtain ⟨more, rfl⟩ :=
    List.prefix_of_prefix_length_le (List.prefix_append _ _) hother hlonger.le
  obtain ⟨c, more, rfl⟩ : ∃ c cs, more = c :: cs :=
    List.exists_cons_of_ne_nil (by rintro rfl; simp at hlonger)
  obtain ⟨behind, rfl⟩ := (List.prefix_append_right_inj start).mp hother
  have hmore : (encode (start ++ [c])).length ≤ (encode (start ++ c :: more)).length :=
    length_encode_le ⟨more, by simp⟩
  exact absurd (hmore.trans hroom) (not_le.mpr (hnext c rfl))

/-- Bytes that end behind a start of a text cut no character. -/
theorem not_cuts {n : Nat} {cs start : List Char} (hstart : start <+: cs)
    (hend : (encode start).length = n) : ¬ Cuts n cs := by
  rintro ⟨before, c, after, rfl, hlt, hgt⟩
  have hbehind : before ++ [c] <+: before ++ c :: after := ⟨after, by simp⟩
  obtain hle | hle := List.prefix_or_prefix_of_prefix hstart hbehind
  · obtain rfl | hle := List.prefix_concat_iff.mp hle
    · omega
    · have := length_encode_le hle
      omega
  · have := length_encode_le hle
    omega

/-- Bytes end behind a start of a text, or cut the character behind one. -/
theorem exists_start {n : Nat} {cs : List Char} (h : n ≤ (encode cs).length) :
    ∃ start after, cs = start ++ after ∧ ((encode start).length = n ∨
      ∃ c ∈ after.head?, (encode start).length < n ∧ n < (encode (start ++ [c])).length) := by
  induction cs generalizing n with
  | nil => exact ⟨[], [], rfl, .inl (Nat.le_zero.mp h).symm⟩
  | cons c cs ih =>
      rw [encode_cons, List.length_append] at h
      by_cases hfits : (utf8EncodeChar c).length ≤ n
      · obtain ⟨start, after, rfl, hstart⟩ := ih (n := n - (utf8EncodeChar c).length) (by omega)
        refine ⟨c :: start, after, rfl, ?_⟩
        simp only [List.cons_append, encode_cons, List.length_append]
        obtain hend | ⟨d, hd, hlt, hgt⟩ := hstart
        · exact .inl (by omega)
        · exact .inr ⟨d, hd, by omega, by omega⟩
      · refine ⟨[], c :: cs, rfl, ?_⟩
        obtain rfl | hpos := Nat.eq_zero_or_pos n
        · exact .inl rfl
        · refine .inr ⟨c, rfl, hpos, ?_⟩
          rw [List.nil_append, encode_cons, List.length_append]
          omega

/-! ### What is read of a text -/

/-- What is left of a character that is cut is read as one replacement character. -/
theorem reads_take_char {c : Char} {k : Nat} (hpos : 0 < k)
    (hlt : k < (utf8EncodeChar c).length) :
    Reads ((utf8EncodeChar c).take k) [replacement] := by
  have hlength : ((utf8EncodeChar c).take k).length = k := List.length_take_of_le hlt.le
  have hpiece : MalformedStart ((utf8EncodeChar c).take k ++ []) ((utf8EncodeChar c).take k) :=
    malformedStart_append (List.ne_nil_of_length_pos (by omega)) (List.take_prefix k _)
      (fun heq => by rw [heq] at hlength; omega) (by simp)
  simpa using Reads.malformed hpiece .nil

/-- **A text of which only the first bytes are there** is read as the longest start that they have room
for, and one replacement character behind it if they cut a character. -/
theorem decode_take_encode {n : Nat} {cs : List Char} (h : n ≤ (encode cs).length) :
    ∃ start, LongestStart n cs start ∧
      (Cuts n cs → decode ((encode cs).take n) = start ++ [replacement]) ∧
      (¬ Cuts n cs → decode ((encode cs).take n) = start) := by
  obtain ⟨start, after, rfl, hend | ⟨c, hc, hlt, hgt⟩⟩ := exists_start h
  · refine ⟨start, longestStart_append hend.le fun c _ => hend ▸ length_encode_lt start c,
      fun hcuts => absurd hcuts (not_cuts (List.prefix_append _ _) hend), fun _ => ?_⟩
    rw [encode_append, List.take_left' hend, decode_encode]
  · obtain ⟨rest, rfl⟩ := List.head?_eq_some_iff.mp hc
    refine ⟨start, longestStart_append hlt.le (by simpa using hgt), fun _ => ?_,
      fun hcuts => absurd ⟨start, c, rest, rfl, hlt, hgt⟩ hcuts⟩
    rw [encode_append, List.length_append, encode_cons, encode_nil, List.append_nil] at hgt
    have hpiece : decode ((utf8EncodeChar c).take (n - (encode start).length)) = [replacement] :=
      decode_eq_iff.mpr (reads_take_char (by omega) (by omega))
    rw [encode_append, encode_cons, List.take_append, List.take_of_length_le hlt.le,
      List.take_append_of_le_length (by omega), decode_encode_append, hpiece]

end Utf8

namespace Janet.Value

/-- What a **stored text** is read as, given the bytes that lie there and the stored length: as the
content of a value, and as the interpreter's own text of one. -/
structure ReadAs (bytes : List UInt8) (length : Nat) (t : String) : Prop where
  content : ∀ kind, (ofBytes kind bytes length).readText = .ok t
  own : ∀ v : Value, v.own = .bytes (bytes.take length) → v.nativeText = t

theorem readAs_iff {bytes : List UInt8} {length : Nat} {t : String} :
    ReadAs bytes length t ↔ Utf8.decode (bytes.take length) = t.toList := by
  rw [← Utf8.toList_decodeString, String.toList_inj]
  constructor
  · exact fun h => Except.ok.inj (h.content .string)
  · rintro rfl
    exact ⟨fun _ => rfl, fun v hv => by rw [nativeText, hv]⟩

/-- **What stored texts are read as.** A text is read as the longest start that the stored length has
room for, and one replacement character behind it if the length cuts a character; so it is read as itself
if the length covers it. Well-formed bytes are read apart from any that stand behind them, and any bytes
whatever are read as they are to be read. -/
theorem readAs_stored :
    (∀ (s : String) (n : Nat), n ≤ s.utf8ByteSize → ∃ start, Utf8.LongestStart n s.toList start ∧
      (Utf8.Cuts n s.toList →
        ReadAs (Utf8.encode s.toList) n (String.ofList (start ++ [Utf8.replacement]))) ∧
      (¬ Utf8.Cuts n s.toList → ReadAs (Utf8.encode s.toList) n (String.ofList start))) ∧
    (∀ s : String, ReadAs (Utf8.encode s.toList) s.utf8ByteSize s) ∧
    (∀ a b : List UInt8, a.toByteArray.IsValidUTF8 → ∃ t u, ReadAs a a.length t ∧
      ReadAs b b.length u ∧ ReadAs (a ++ b) (a ++ b).length (t ++ u)) ∧
    ∀ (bytes : List UInt8) (n : Nat), n ≤ bytes.length → ∀ t : String,
      ReadAs bytes n t ↔ Utf8.Reads (bytes.take n) t.toList := by
  refine ⟨fun s n hn => ?_, fun s => ?_, fun a b ha => ?_, fun bytes n _ t => ?_⟩
  · rw [← Utf8.length_encode] at hn
    obtain ⟨start, hstart, hcut, hwhole⟩ := Utf8.decode_take_encode hn
    refine ⟨start, hstart, fun h => readAs_iff.mpr ?_, fun h => readAs_iff.mpr ?_⟩
    · rw [hcut h, String.toList_ofList]
    · rw [hwhole h, String.toList_ofList]
  · rw [readAs_iff, ← Utf8.length_encode, List.take_length, Utf8.decode_encode]
  · refine ⟨Utf8.decodeString a, Utf8.decodeString b, ?_, ?_, ?_⟩ <;>
      rw [readAs_iff, List.take_length]
    · rw [Utf8.toList_decodeString]
    · rw [Utf8.toList_decodeString]
    · rw [String.toList_append, Utf8.toList_decodeString, Utf8.toList_decodeString,
        Utf8.decode_append ha]
  · rw [readAs_iff, Utf8.decode_eq_iff]

/-- A text with a zero in it of which seven bytes are stored, so that the last character is cut behind
its second byte, and five, so that none is cut; well-formed bytes in front of malformed ones; and a length
that leaves out a byte. -/
theorem readAs_stored_of_four :
    let s := "a\x00€😀"
    7 ≤ s.utf8ByteSize ∧ Utf8.Cuts 7 s.toList ∧ ReadAs (Utf8.encode s.toList) 7 "a\x00€\uFFFD" ∧
    5 ≤ s.utf8ByteSize ∧ ¬ Utf8.Cuts 5 s.toList ∧ ReadAs (Utf8.encode s.toList) 5 "a\x00€" ∧
    [0xC3, 0xA9].toByteArray.IsValidUTF8 ∧
      (∃ t u, ReadAs [0xC3, 0xA9] 2 t ∧ ReadAs [0x80, 0xE2, 0x82] 3 u ∧
        ReadAs [0xC3, 0xA9, 0x80, 0xE2, 0x82] 5 (t ++ u)) ∧
    2 ≤ [0xC3, 0xA9, 0xFF].length ∧
      (ReadAs [0xC3, 0xA9, 0xFF] 2 "é" ↔ Utf8.Reads [0xC3, 0xA9] ['é']) := by
  intro s
  have hlong : 7 ≤ s.utf8ByteSize := by decide
  have hcuts : Utf8.Cuts 7 s.toList :=
    ⟨['a', '\x00', '€'], '😀', [], by decide, by decide, by decide⟩
  have hshort : 5 ≤ s.utf8ByteSize := by decide
  have hwhole : ¬ Utf8.Cuts 5 s.toList :=
    @Utf8.not_cuts 5 _ ['a', '\x00', '€'] ⟨['😀'], by decide⟩ (by decide)
  have hlongest : ∀ n, 5 ≤ n → n < 9 → Utf8.LongestStart n s.toList ['a', '\x00', '€'] := by
    intro n hle hlt
    have htext : s.toList = ['a', '\x00', '€'] ++ ['😀'] := by decide
    rw [htext]
    refine Utf8.longestStart_append (le_trans (by decide) hle) fun c hc => ?_
    obtain rfl := Option.some.inj hc
    exact hlt.trans_le (by decide)
  have hvalid : [0xC3, 0xA9].toByteArray.IsValidUTF8 := ⟨['é'], by decide⟩
  obtain ⟨start, h, hread, -⟩ := readAs_stored.1 s 7 hlong
  obtain rfl := h.unique (hlongest 7 (by omega) (by omega))
  obtain ⟨start, h, -, hread'⟩ := readAs_stored.1 s 5 hshort
  obtain rfl := h.unique (hlongest 5 (by omega) (by omega))
  exact ⟨hlong, hcuts, hread hcuts, hshort, hwhole, hread' hwhole, hvalid,
    readAs_stored.2.2.1 [0xC3, 0xA9] [0x80, 0xE2, 0x82] hvalid, by decide,
    readAs_stored.2.2.2 [0xC3, 0xA9, 0xFF] 2 (by decide) "é"⟩

end Janet.Value

end JanetEmbedding
