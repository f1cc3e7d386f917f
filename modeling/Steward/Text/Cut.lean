/-!
# Cutting text

`cut` parts a text at the first place of a character, `afterLast` takes what follows its last
place, and `fields` parts it at every place; `cutAround` parts it around the first place of a text.

These are `partition`, `rpartition` and `split`.
-/

namespace Steward.Text

/-- What stands before the first `c`, and what stands after it if there is one. -/
def cut (c : Char) (cs : List Char) : List Char × Option (List Char) :=
  match cs.span (· != c) with
  | (before, _ :: after) => (before, some after)
  | (before, []) => (before, none)

/-- What stands after the last `c`, or the whole text if there is none. -/
def afterLast (c : Char) (cs : List Char) : List Char :=
  (cs.reverse.takeWhile (· != c)).reverse

/-- The texts between the places of `c`; always at least one. -/
def fields (c : Char) : List Char → List (List Char)
  | [] => [[]]
  | d :: rest =>
    match fields c rest with
    | f :: fs => if d == c then [] :: f :: fs else (d :: f) :: fs
    | [] => [[d]]

/-- What stands before and after the first place of a text; all and nothing if it has none. -/
def cutAround (mark : List Char) : List Char → List Char × List Char
  | [] => ([], [])
  | c :: rest =>
    if mark.isPrefixOf (c :: rest) then ([], (c :: rest).drop mark.length)
    else
      let (before, after) := cutAround mark rest
      (c :: before, after)

end Steward.Text
