import JanetEmbedding.Janet.Value
import JanetEmbedding.Nesting

/-!
# Display text

The text in which an evaluation shows its value. Sequences stand between parentheses, items apart by
a space; mappings and whatever is never looked into are shown as the interpreter itself does. The items of
a sequence are joined with four more calls open.
-/

namespace JanetEmbedding.Janet.Value

mutual

/-- The display text of a value. It fails if a sequence on the way refuses to be viewed, and where there is
no room. -/
def display (room : Nat) : Value → Except ViewFault String
  | nil _ => .ok "nil"
  | boolean b _ => .ok (if b then "true" else "false")
  | number x own => .ok (number x own).nativeText
  | text .keyword content _ => .ok (":" ++ contentText content)
  | text _ content _ => .ok (contentText content)
  | sequence _ (some items) _ =>
    Nesting.within .tooDeep 4 room fun room => do
      let parts ← displays room items
      return "(" ++ " ".intercalate parts ++ ")"
  | sequence _ none _ => .error .notSequence
  | mapping k slots own => .ok (mapping k slots own).nativeText
  | other k own => .ok (other k own).nativeText

/-- The display texts of the items of a sequence. -/
def displays (room : Nat) : List Value → Except ViewFault (List String)
  | [] => .ok []
  | v :: vs => do
    let part ← display room v
    return part :: (← displays room vs)

end

end JanetEmbedding.Janet.Value
