import Steward.Text.Blank

/-!
# Lines and words

`evenLines` gives every line the same end, and `firstWord` takes what stands before the first blank
inside a text.

This is `read_text`, which knows every end of a line.
-/

namespace Steward.Text

/-- Write every end of a line, of one or of two characters, as a line feed. -/
def evenLines : List Char → List Char
  | '\r' :: '\n' :: rest => '\n' :: evenLines rest
  | '\r' :: rest => '\n' :: evenLines rest
  | c :: rest => c :: evenLines rest
  | [] => []

/-- The first word of a text. -/
def firstWord (s : String) : String :=
  String.ofList ((s.toList.dropWhile isBlank).takeWhile fun c => !isBlank c)

end Steward.Text
