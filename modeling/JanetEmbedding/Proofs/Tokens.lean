import JanetEmbedding.Proofs.NumberText

/-!
# The tokens of a written value

A written value is cut into the tokens that it was written from, whatever stands behind it, and in
either layout.

## Conventions

A number or a word is an atom, and an atom goes on as long as its characters do. The tokens of a value
are therefore only claimed where what follows is *set apart*: it is the end of the text, or starts with a
character that no atom has.

## Main definitions

* `Json.SetApart`: what may follow a value.
* `Json.toTokens`: the tokens that a value is written as.
* `Json.WellFormed`: a value whose integers can be written and whose names are different.

## Main results

* `Json.tokensFrom_quote`: a quoted text is one token.
* `Json.tokensFrom_points`: the tokens of a written value.
-/

namespace JanetEmbedding.Json

/-- What follows a value is **set apart** from it: the end, or a character that no atom has. -/
def SetApart (ps : List Text.Point) : Prop :=
  ∀ p ∈ ps.head?, ∃ c, p = .char c ∧ isAtomChar c = false

variable {cs : List Char} {rest : List Text.Point} {j : Json}

theorem setApart_nil : SetApart [] := fun _ h => nomatch h

theorem setApart_cons {c : Char} (hc : isAtomChar c = false) (rest : List Text.Point) :
    SetApart (.char c :: rest) := by
  intro p hp
  obtain rfl := Option.some.inj hp
  exact ⟨c, rfl, hc⟩

/-! ### Marks, atoms and blanks -/

/-- **A mark is one token.** -/
theorem tokensFrom_mark {c : Char} {t : Token} (hc : enter c = ([t], .between))
    (rest : List Text.Point) :
    tokensFrom .between (.char c :: rest) = t :: tokensFrom .between rest := by
  have hstep : step .between (.char c) = ([t], .between) := hc
  rw [tokensFrom_cons, hstep]
  rfl

/-- An atom goes on up to where it is set apart. -/
theorem tokensFrom_atom (hcs : ∀ c ∈ cs, isAtomChar c = true) (hrest : SetApart rest)
    (read : List Char) :
    tokensFrom (.atom read) (plainPoints cs ++ rest) =
      .ofAtom (read.reverse ++ cs) :: tokensFrom .between rest := by
  induction cs generalizing read with
  | nil =>
      rw [List.append_nil]
      cases rest with
      | nil => rfl
      | cons p rest =>
          obtain ⟨c, rfl, hc⟩ := hrest p rfl
          show tokensFrom (.atom read) (.char c :: rest) = _
          rw [tokensFrom_cons, tokensFrom_cons]
          simp [step, stepChar, hc]
  | cons c cs ih =>
      have hc := hcs c List.mem_cons_self
      have hstep : step (.atom read) (.char c) = ([], .atom (c :: read)) := by
        simp [step, stepChar, hc]
      show tokensFrom (.atom read) (.char c :: (plainPoints cs ++ rest)) = _
      rw [tokensFrom_cons, hstep, ih (fun c' hc' => hcs c' (List.mem_cons_of_mem c hc'))]
      simp

/-- **An atom is one token.** -/
theorem tokensFrom_isAtom (h : IsAtom cs j) (hrest : SetApart rest) :
    tokensFrom .between (plainPoints cs ++ rest) = .scalar j :: tokensFrom .between rest := by
  obtain ⟨c, cs, rfl⟩ := List.exists_cons_of_ne_nil h.ne_nil
  have hc := h.chars c List.mem_cons_self
  have hspace : isSpace c = false := by
    by_contra hspace
    have hblank : c = ' ' ∨ c = '\t' ∨ c = '\n' ∨ c = '\r' := by
      simpa only [isSpace, Bool.not_eq_false, Bool.or_eq_true, beq_iff_eq, or_assoc] using hspace
    rcases hblank with rfl | rfl | rfl | rfl <;> cases hc
  have hstep : step .between (.char c) = ([], .atom [c]) := by
    simp [step, stepChar, enter, hc, hspace]
  show tokensFrom .between (.char c :: (plainPoints cs ++ rest)) = _
  rw [tokensFrom_cons, hstep,
    tokensFrom_atom (fun c' hc' => h.chars c' (List.mem_cons_of_mem c hc')) hrest, ← h.token]
  rfl

/-- Blanks are no tokens. -/
theorem tokensFrom_blank (hcs : ∀ c ∈ cs, isSpace c = true) (rest : List Text.Point) :
    tokensFrom .between (plainPoints cs ++ rest) = tokensFrom .between rest := by
  induction cs with
  | nil => rfl
  | cons c cs ih =>
      have hc := hcs c List.mem_cons_self
      have hstep : step .between (.char c) = ([], .between) := by simp [step, stepChar, enter, hc]
      show tokensFrom .between (.char c :: (plainPoints cs ++ rest)) = _
      rw [tokensFrom_cons, hstep, ih fun c' hc' => hcs c' (List.mem_cons_of_mem c hc')]
      rfl

theorem isSpace_edge (s : Spacing) :
    ∀ c ∈ (if s.pretty then '\n' :: List.replicate (2 * s.depth) ' ' else []), isSpace c = true := by
  intro c hc
  split at hc
  · rcases List.mem_cons.mp hc with rfl | hc
    · rfl
    · exact List.eq_of_mem_replicate hc ▸ rfl
  · cases hc

/-- The space at the edge of a collection is blank. -/
@[simp] theorem tokensFrom_edge (s : Spacing) (rest : List Text.Point) :
    tokensFrom .between (s.edge ++ rest) = tokensFrom .between rest :=
  tokensFrom_blank (isSpace_edge s) rest

theorem setApart_edge (s : Spacing) (hrest : SetApart rest) : SetApart (s.edge ++ rest) := by
  rw [Spacing.edge]
  split
  · exact setApart_cons (by decide) _
  · exact hrest

/-- Two parts are set apart by a comma. -/
@[simp] theorem tokensFrom_between (s : Spacing) (rest : List Text.Point) :
    tokensFrom .between (s.between ++ rest) = .comma :: tokensFrom .between rest := by
  rw [Spacing.between, List.cons_append, tokensFrom_mark rfl]
  split
  · rw [tokensFrom_edge]
  · have hblank : ∀ c ∈ [' '], isSpace c = true := List.all_eq_true.mp rfl
    exact congrArg (Token.comma :: ·) (tokensFrom_blank hblank rest)

@[simp] theorem tokensFrom_colonPoints (rest : List Text.Point) :
    tokensFrom .between (colonPoints ++ rest) = .colon :: tokensFrom .between rest := by
  show tokensFrom .between (.char ':' :: (plainPoints [' '] ++ rest)) = _
  rw [tokensFrom_mark rfl, tokensFrom_blank (List.all_eq_true.mp rfl)]

/-! ### Quoted texts -/

/-- The escape of a control character has the two digits of its number behind two zeros. -/
theorem hexDigits_control : ∀ n < 0x20,
    Text.hexDigits 4 n = ['0', '0', Nat.digitChar (n / 16), Nat.digitChar (n % 16)] := by
  decide

theorem digitValue_digitChar : ∀ n < 16, Text.digitValue? 16 (Nat.digitChar n) = some n := by
  decide

/-- A character is no second half of another one. -/
theorem joined?_char (p : Text.Point) (c : Char) : p.joined? (.char c) = none := by
  cases p <;> rfl

theorem read_pushNumber {n : Nat} (hn : n < 0x20) (ps : Points) :
    (ps.pushNumber n).read = .char (Char.ofNat n) :: ps.read := by
  have hcode : Text.Point.ofCode n = .char (Char.ofNat n) := by
    rw [Text.Point.ofCode, dif_neg fun h => by
      have hfirst : 0xD800 ≤ n := h.1
      omega]
  rw [Points.pushNumber.eq_def, hcode]
  split
  next first read => simp only [joined?_char]
  next => rfl

/-- **A point is read back** as it was written. -/
theorem tokensFrom_quotePoint (p : Text.Point) (ps : Points) (rest : List Text.Point) :
    ∃ ps' : Points, ps'.read = p :: ps.read ∧
      tokensFrom (.inText ps) (quotePoint p ++ rest) = tokensFrom (.inText ps') rest := by
  cases p with
  | surrogate n => exact ⟨ps.push (.surrogate n), rfl, tokensFrom_cons ..⟩
  | char c =>
      rw [quotePoint, quoteChar.eq_def]
      split
      case h_8 hquote hbackslash _ _ _ _ _ =>
        split
        next hcontrol =>
          have hhigh := digitValue_digitChar (c.toNat / 16) (by omega)
          have hlow := digitValue_digitChar (c.toNat % 16) (by omega)
          have hvalue : c.toNat / 16 * 16 + c.toNat % 16 = c.toNat := by omega
          refine ⟨ps.pushNumber c.toNat, ?_, ?_⟩
          · rw [read_pushNumber hcontrol, Char.ofNat_toNat]
          · have hzero : Text.digitValue? 16 '0' = some 0 := rfl
            rw [hexDigits_control c.toNat hcontrol]
            simp [step, stepChar, hzero, hhigh, hlow, hvalue]
        next hcontrol =>
          have hplain : c ≠ '"' ∧ c ≠ '\\' := ⟨hquote, hbackslash⟩
          refine ⟨ps.push (.char c), rfl, ?_⟩
          simp [step, stepChar, hplain, hcontrol]
      all_goals exact ⟨ps.push (.char _), rfl, by simp [step, stepChar, unescape?]⟩

/-- The points of a quoted text are read one after the other. -/
theorem tokensFrom_quotePoints (ts : List Text.Point) (ps : Points) (rest : List Text.Point) :
    tokensFrom (.inText ps) (ts.flatMap quotePoint ++ .char '"' :: rest) =
      .text ⟨ps.read.reverse ++ ts⟩ :: tokensFrom .between rest := by
  induction ts generalizing ps with
  | nil =>
      rw [List.append_nil]
      exact tokensFrom_cons ..
  | cons p ts ih =>
      obtain ⟨ps', hread, hfrom⟩ :=
        tokensFrom_quotePoint p ps (ts.flatMap quotePoint ++ .char '"' :: rest)
      rw [List.flatMap_cons, List.append_assoc, hfrom, ih, hread]
      simp

/-- **A quoted text is one token.** -/
@[simp] theorem tokensFrom_quote (t : Text) (rest : List Text.Point) :
    tokensFrom .between (quote t ++ rest) = .text t :: tokensFrom .between rest := by
  have hquote : quote t ++ rest = .char '"' :: (t.points.flatMap quotePoint ++ .char '"' :: rest) := by
    simp [quote]
  rw [hquote, tokensFrom_cons]
  exact tokensFrom_quotePoints t.points {} rest

/-! ### Values -/

mutual

/-- The tokens that a value is written as. -/
def toTokens : Json → List Token
  | text t => [.text t]
  | list [] => [.beginList, .endList]
  | list (j :: js) => .beginList :: (toTokens j ++ (itemTokens js ++ [.endList]))
  | object [] => [.beginObject, .endObject]
  | object ((k, j) :: fs) =>
    .beginObject :: .text k :: .colon :: (toTokens j ++ (fieldTokens fs ++ [.endObject]))
  | j => [.scalar j]

/-- The tokens of the items after the first. -/
def itemTokens : List Json → List Token
  | [] => []
  | j :: js => .comma :: (toTokens j ++ itemTokens js)

/-- The tokens of the fields after the first. -/
def fieldTokens : List (Text × Json) → List Token
  | [] => []
  | (k, j) :: fs => .comma :: .text k :: .colon :: (toTokens j ++ fieldTokens fs)

end

/-- A value is **well-formed** if its integers can be written, and the names of each object are
different. -/
inductive WellFormed : Json → Prop
  | null : WellFormed null
  | bool (b : Bool) : WellFormed (bool b)
  | int {n : Int} (hn : (Double.decimalDigits n.natAbs).length ≤ Double.maxIntegerDigits) :
      WellFormed (int n)
  | float (x : Double) : WellFormed (float x)
  | text (t : Text) : WellFormed (text t)
  | list {items : List Json} (hitems : ∀ j ∈ items, WellFormed j) : WellFormed (list items)
  | object {fields : List (Text × Json)} (hfields : ∀ f ∈ fields, WellFormed f.2)
      (hnames : (fields.map Prod.fst).Nodup) : WellFormed (object fields)

/-- The items after the first are set apart. -/
theorem setApart_pointsOfItems (s : Spacing) (js : List Json) (hrest : SetApart rest) :
    SetApart (pointsOfItems s js ++ rest) := by
  cases js with
  | nil => exact hrest
  | cons j js => exact setApart_cons (by decide) _

/-- The fields after the first are set apart. -/
theorem setApart_pointsOfFields (s : Spacing) (fs : List (Text × Json)) (hrest : SetApart rest) :
    SetApart (pointsOfFields s fs ++ rest) := by
  cases fs with
  | nil => exact hrest
  | cons f fs => exact setApart_cons (by decide) _

/-- A value is **cut as written** if its points are cut into its tokens, in either layout and
wherever it is set apart. -/
def CutAsWritten (j : Json) : Prop :=
  ∀ (s : Spacing) (rest : List Text.Point), SetApart rest →
    tokensFrom .between (points s j ++ rest) = j.toTokens ++ tokensFrom .between rest

theorem tokensFrom_pointsOfItems {js : List Json} (hjs : ∀ j ∈ js, CutAsWritten j) (s : Spacing)
    (hrest : SetApart rest) :
    tokensFrom .between (pointsOfItems s js ++ rest) = itemTokens js ++ tokensFrom .between rest := by
  induction js with
  | nil => rfl
  | cons j js ih =>
      have htail := ih fun j' hj' => hjs j' (List.mem_cons_of_mem j hj')
      rw [pointsOfItems, itemTokens, List.append_assoc, List.append_assoc, tokensFrom_between,
        hjs j List.mem_cons_self s _ (setApart_pointsOfItems s js hrest), htail]
      simp

theorem tokensFrom_pointsOfFields {fs : List (Text × Json)} (hfs : ∀ f ∈ fs, CutAsWritten f.2)
    (s : Spacing) (hrest : SetApart rest) :
    tokensFrom .between (pointsOfFields s fs ++ rest) =
      fieldTokens fs ++ tokensFrom .between rest := by
  induction fs with
  | nil => rfl
  | cons f fs ih =>
      obtain ⟨k, j⟩ := f
      have htail := ih fun f' hf' => hfs f' (List.mem_cons_of_mem _ hf')
      rw [pointsOfFields, fieldTokens, List.append_assoc, List.append_assoc, List.append_assoc,
        List.append_assoc, tokensFrom_between, tokensFrom_quote, tokensFrom_colonPoints,
        hfs (k, j) List.mem_cons_self s _ (setApart_pointsOfFields s fs hrest), htail]
      simp

/-- A list is cut into its tokens if its items are. -/
theorem cutAsWritten_list {js : List Json} (hjs : ∀ j ∈ js, CutAsWritten j) :
    CutAsWritten (.list js) := by
  intro s rest hrest
  cases js with
  | nil =>
      show tokensFrom .between (.char '[' :: .char ']' :: rest) = _
      rw [tokensFrom_mark rfl, tokensFrom_mark rfl]
      rfl
  | cons j js =>
      have hend : SetApart (s.edge ++ .char ']' :: rest) :=
        setApart_edge s (setApart_cons (by decide) rest)
      have hitems := tokensFrom_pointsOfItems (fun j' hj' => hjs j' (List.mem_cons_of_mem j hj'))
        s.inner hend
      have hhead := hjs j List.mem_cons_self s.inner _ (setApart_pointsOfItems s.inner js hend)
      calc tokensFrom .between (points s (.list (j :: js)) ++ rest)
          = tokensFrom .between (.char '[' :: (s.inner.edge ++ (points s.inner j ++
              (pointsOfItems s.inner js ++ (s.edge ++ .char ']' :: rest))))) := by
            simp only [points, List.cons_append, List.append_assoc, List.nil_append]
        _ = .beginList :: (toTokens j ++ (itemTokens js ++
              .endList :: tokensFrom .between rest)) := by
            rw [tokensFrom_mark rfl, tokensFrom_edge, hhead, hitems, tokensFrom_edge,
              tokensFrom_mark rfl]
        _ = toTokens (.list (j :: js)) ++ tokensFrom .between rest := by
            simp [toTokens]

/-- An object is cut into its tokens if the values of its fields are. -/
theorem cutAsWritten_object {fs : List (Text × Json)} (hfs : ∀ f ∈ fs, CutAsWritten f.2) :
    CutAsWritten (.object fs) := by
  intro s rest hrest
  cases fs with
  | nil =>
      show tokensFrom .between (.char '\x7b' :: .char '\x7d' :: rest) = _
      rw [tokensFrom_mark rfl, tokensFrom_mark rfl]
      rfl
  | cons f fs =>
      obtain ⟨k, j⟩ := f
      have hend : SetApart (s.edge ++ .char '\x7d' :: rest) :=
        setApart_edge s (setApart_cons (by decide) rest)
      have hfields := tokensFrom_pointsOfFields (fun f' hf' => hfs f' (List.mem_cons_of_mem _ hf'))
        s.inner hend
      have hhead := hfs (k, j) List.mem_cons_self s.inner _ (setApart_pointsOfFields s.inner fs hend)
      calc tokensFrom .between (points s (.object ((k, j) :: fs)) ++ rest)
          = tokensFrom .between (.char '\x7b' :: (s.inner.edge ++ (quote k ++ (colonPoints ++
              (points s.inner j ++ (pointsOfFields s.inner fs ++
                (s.edge ++ .char '\x7d' :: rest))))))) := by
            simp only [points, List.cons_append, List.append_assoc, List.nil_append]
        _ = .beginObject :: .text k :: .colon :: (toTokens j ++ (fieldTokens fs ++
              .endObject :: tokensFrom .between rest)) := by
            rw [tokensFrom_mark rfl, tokensFrom_edge, tokensFrom_quote, tokensFrom_colonPoints,
              hhead, hfields, tokensFrom_edge, tokensFrom_mark rfl]
        _ = toTokens (.object ((k, j) :: fs)) ++ tokensFrom .between rest := by
            simp [toTokens]

/-- **A written value is cut into its tokens.** -/
theorem WellFormed.cutAsWritten (h : WellFormed j) : CutAsWritten j := by
  induction h with
  | null => exact fun s rest hrest => tokensFrom_isAtom ⟨by decide, List.all_eq_true.mp rfl, rfl⟩ hrest
  | bool b =>
      intro s rest hrest
      cases b <;> exact tokensFrom_isAtom ⟨by decide, List.all_eq_true.mp rfl, rfl⟩ hrest
  | int hn => exact fun s rest hrest => tokensFrom_isAtom (isAtom_integerText hn) hrest
  | float x => exact fun s rest hrest => tokensFrom_isAtom (isAtom_textWith x) hrest
  | text t => exact fun s rest _ => tokensFrom_quote t rest
  | list _ ih => exact cutAsWritten_list ih
  | object _ _ ih => exact cutAsWritten_object ih

/-- **The tokens of a written value**, in either layout. -/
theorem tokens_write (h : WellFormed j) (pretty : Bool) : tokens (write pretty j) = j.toTokens := by
  have hcut := h.cutAsWritten ⟨pretty, 0⟩ [] setApart_nil
  rw [List.append_nil, tokensFrom_nil] at hcut
  exact hcut.trans (List.append_nil _)

end JanetEmbedding.Json
