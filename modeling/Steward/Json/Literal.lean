import Steward.Json.Printer

/-!
# Documents inside messages

A message that quotes a document writes it as a literal: texts in quotes, the truth values and the
null value as words with a capital, lists and objects in brackets.

This is `repr` of a value, and `plain` is `str` of it.
-/

namespace Steward.Json

/-- A binary number as a literal. -/
def floatLiteral (x : Binary64) : List Char :=
  if x.isNaN then "nan".toList
  else if x.isFinite then x.finiteText
  else (if x.negative then ['-'] else []) ++ "inf".toList

mutual

/-- The characters of the literal. -/
def literalChars : Json → List Char
  | .null => "None".toList
  | .bool true => "True".toList
  | .bool false => "False".toList
  | .int n => intText n
  | .float x => floatLiteral x
  | .string s => (Text.quoted s).toList
  | .array items => '[' :: literalItems items ++ [']']
  | .object members => '{' :: literalMembers members ++ ['}']

/-- The items of a list. -/
def literalItems : List Json → List Char
  | [] => []
  | [v] => literalChars v
  | v :: rest => literalChars v ++ ',' :: ' ' :: literalItems rest

/-- The members of an object. -/
def literalMembers : List (String × Json) → List Char
  | [] => []
  | [(k, v)] => (Text.quoted k).toList ++ ':' :: ' ' :: literalChars v
  | (k, v) :: rest =>
    (Text.quoted k).toList ++ ':' :: ' ' :: literalChars v ++ ',' :: ' ' :: literalMembers rest

end

/-- A document as a literal. -/
def literal (v : Json) : String := String.ofList v.literalChars

/-- A document as text: a string stands for itself, any other document is written as a literal. -/
def plain : Json → String
  | .string s => s
  | v => v.literal

end Steward.Json
