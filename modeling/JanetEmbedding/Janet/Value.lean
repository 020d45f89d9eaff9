import JanetEmbedding.Number.Text
import JanetEmbedding.Text.Utf8

/-!
# Interpreter values

The values of the interpreter, as far as they can be looked at from outside: the type of a value, the
content of a text, the items of a sequence, the slots of a mapping, and the text that the interpreter
itself makes of a value.

Looking can fail. A text may have no content, a container may refuse to be viewed, and the
interpreter may have its own text, or none, for a value.

## Main definitions

* `Janet.Kind`: the types and their numbers.
* `Janet.Value`: a value.
* `Janet.Value.nativeText`: the interpreter's own text of a value.
* `Janet.ViewFault`: why a value cannot be looked at in some way.
-/

namespace JanetEmbedding.Janet

/-! ### Types -/

/-- The kinds of text: all hold bytes, and a keyword is displayed with a colon before it. -/
inductive TextKind where
  | string
  | symbol
  | keyword
  deriving DecidableEq, Repr

/-- The kinds of sequence. -/
inductive SequenceKind where
  | array
  | tuple
  deriving DecidableEq, Repr

/-- The kinds of mapping. -/
inductive MappingKind where
  | table
  | struct
  deriving DecidableEq, Repr

/-- The kinds of value that are never looked into, those of an unknown number among them. -/
inductive OpaqueKind where
  | fiber
  | buffer
  | function
  | cfunction
  | abstract
  | pointer
  | unknown (code : Int)
  deriving DecidableEq, Repr

/-- The types of value. -/
inductive Kind where
  | nil
  | boolean
  | number
  | text (kind : TextKind)
  | sequence (kind : SequenceKind)
  | mapping (kind : MappingKind)
  | other (kind : OpaqueKind)
  deriving DecidableEq, Repr

namespace Kind

/-- The number of a type. -/
def code : Kind → Int
  | number => 0
  | nil => 1
  | boolean => 2
  | other .fiber => 3
  | text .string => 4
  | text .symbol => 5
  | text .keyword => 6
  | sequence .array => 7
  | sequence .tuple => 8
  | mapping .table => 9
  | mapping .struct => 10
  | other .buffer => 11
  | other .function => 12
  | other .cfunction => 13
  | other .abstract => 14
  | other .pointer => 15
  | other (.unknown n) => n

/-- The name of a type. -/
def name : Kind → String
  | number => "number"
  | nil => "nil"
  | boolean => "boolean"
  | other .fiber => "fiber"
  | text .string => "string"
  | text .symbol => "symbol"
  | text .keyword => "keyword"
  | sequence .array => "array"
  | sequence .tuple => "tuple"
  | mapping .table => "table"
  | mapping .struct => "struct"
  | other .buffer => "buffer"
  | other .function => "function"
  | other .cfunction => "cfunction"
  | other .abstract => "abstract"
  | other .pointer => "pointer"
  | other (.unknown n) => s!"type{n}"

/-- The types that have a name of their own. -/
def known : List Kind :=
  [number, nil, boolean, other .fiber, text .string, text .symbol, text .keyword, sequence .array,
    sequence .tuple, mapping .table, mapping .struct, other .buffer, other .function,
    other .cfunction, other .abstract, other .pointer]

/-- The type of a name. -/
def ofName? (s : String) : Option Kind := known.find? (·.name == s)

theorem code_known : known.map code = (List.range 16).map Int.ofNat := by decide

end Kind

/-! ### Values -/

/-- What the interpreter gives as its own text of a value. -/
inductive NativeText where
  /-- the text that follows from the type and the content -/
  | usual
  /-- no text at all -/
  | absent
  | bytes (bs : List UInt8)
  deriving DecidableEq, Repr

/-- A value. Each carries what the interpreter gives as its own text of it. -/
inductive Value where
  | nil (own : NativeText)
  | boolean (b : Bool) (own : NativeText)
  | number (x : Double) (own : NativeText)
  /-- A text; `content` is what its stored length covers, or `none` if there is no content. -/
  | text (kind : TextKind) (content : Option (List UInt8)) (own : NativeText)
  /-- A sequence; `items` is `none` if it refuses to be viewed. -/
  | sequence (kind : SequenceKind) (items : Option (List Value)) (own : NativeText)
  /-- A mapping; `slots` has every slot in order, empty ones with a nil key, and is `none` if the
  mapping refuses to be viewed. -/
  | mapping (kind : MappingKind) (slots : Option (List (Value × Value))) (own : NativeText)
  | other (kind : OpaqueKind) (own : NativeText)

/-- The slots of a mapping. -/
abbrev Slots := List (Value × Value)

namespace Value

instance : Inhabited Value := ⟨nil .usual⟩

/-- A string of the given text. -/
def ofString (s : String) : Value := text .string (some (Utf8.encode s.toList)) .usual

/-- A text of some bytes, of which its stored length covers the first `length`. The interpreter's own text
of it has them all. -/
def ofBytes (kind : TextKind) (bytes : List UInt8) (length : Nat) : Value :=
  text kind (some (bytes.take length))
    (.bytes (if kind = .keyword then UInt8.ofNat ':'.toNat :: bytes else bytes))

/-- The type of a value. -/
def kind : Value → Kind
  | nil _ => .nil
  | boolean _ _ => .boolean
  | number _ _ => .number
  | text k _ _ => .text k
  | sequence k _ _ => .sequence k
  | mapping k _ _ => .mapping k
  | other k _ => .other k

/-- Whether a value is nil. -/
def isNil : Value → Bool
  | nil _ => true
  | _ => false

/-- What the interpreter gives as its own text of a value. -/
def own : Value → NativeText
  | nil o => o
  | boolean _ o => o
  | number _ o => o
  | text _ _ o => o
  | sequence _ _ o => o
  | mapping _ _ o => o
  | other _ o => o

/-- The text of content, which is empty if there is none. -/
def contentText (content : Option (List UInt8)) : String := Utf8.decodeString (content.getD [])

/-- The text that follows from the type and the content of a value: a number without a fraction is
a plain integer, a keyword has its colon, and whatever cannot be written stands as its type. -/
def usualText : Value → String
  | nil _ => "nil"
  | boolean b _ => if b then "true" else "false"
  | number x _ => x.plainText
  | text .keyword content _ => ":" ++ contentText content
  | text _ content _ => contentText content
  | v => "<" ++ v.kind.name ++ ">"

/-- The interpreter's own text of a value. -/
def nativeText (v : Value) : String :=
  match v.own with
  | .usual => v.usualText
  | .absent => ""
  | .bytes bs => Utf8.decodeString bs

/-- The interpreter's own text of a nil, a truth value or a number is its usual one. -/
theorem nativeText_of_own_eq_usual {v : Value} (h : v.own = .usual) : v.nativeText = v.usualText := by
  simp [nativeText, h]

end Value

/-! ### Looking at a value -/

/-- Why a value cannot be looked at in some way. -/
inductive ViewFault where
  /-- A value of this type has no content. -/
  | notText (code : Int)
  | notSequence
  | notMapping
  /-- The value is nested too deeply. -/
  | tooDeep
  deriving DecidableEq, Repr

namespace ViewFault

/-- The wording of a fault. -/
def message : ViewFault → String
  | notText code => s!"not a string-like Janet value (type {code})"
  | notSequence => "not an indexed Janet value"
  | notMapping => "not a dictionary Janet value"
  | tooDeep => "maximum recursion depth exceeded"

end ViewFault

namespace Value

/-- The content of a text, a keyword without its colon. -/
def readText : Value → Except ViewFault String
  | text _ content _ => .ok (contentText content)
  | v => .error (.notText v.kind.code)

/-- The items of a sequence. -/
def readItems : Value → Except ViewFault (List Value)
  | sequence _ (some items) _ => .ok items
  | _ => .error .notSequence

/-- The slots of a mapping, empty ones included. -/
def readSlots : Value → Except ViewFault Slots
  | mapping _ (some slots) _ => .ok slots
  | _ => .error .notMapping

end Value

end JanetEmbedding.Janet
