import Steward.Decimal.Binary64
import Steward.Table

/-!
# Documents

The values that specifications, statuses, secrets and messages are made of.  Whole numbers and
binary numbers are kept apart, and an object is the list of its members in the order in which they
were written, each key once.  Texts and keys are sequences of Unicode scalar values: a text with an
unpaired surrogate is none of these, and nothing is said of documents that hold one.
-/

namespace Steward

/-- A document. -/
inductive Json where
  | null
  | bool (b : Bool)
  | int (n : Int)
  | float (x : Binary64)
  | string (s : String)
  | array (items : List Json)
  | object (members : List (String × Json))
  deriving Repr, Inhabited

namespace Json

/-! ## 1. Members of an object -/

/-- The members of an object in order, each key once. -/
abbrev Members := Table Json

/-- The value of a key of an object; nothing for any other document. -/
def get? : Json → String → Option Json
  | .object ms, key => Table.get? ms key
  | _, _ => none

/-! ## 2. Identity -/

mutual

/-- The same document, members in the same order and numbers of the same form. -/
def identical : Json → Json → Bool
  | .null, .null => true
  | .bool a, .bool b => a == b
  | .int m, .int n => m == n
  | .float x, .float y => x == y
  | .string s, .string t => s == t
  | .array xs, .array ys => identicalItems xs ys
  | .object ms, .object ns => identicalMembers ms ns
  | _, _ => false

/-- The same items in the same order. -/
def identicalItems : List Json → List Json → Bool
  | [], [] => true
  | x :: xs, y :: ys => identical x y && identicalItems xs ys
  | _, _ => false

/-- The same members in the same order. -/
def identicalMembers : List (String × Json) → List (String × Json) → Bool
  | [], [] => true
  | (k, v) :: ms, (l, w) :: ns => k == l && identical v w && identicalMembers ms ns
  | _, _ => false

end

mutual

theorem identical_iff : ∀ a b : Json, identical a b = true ↔ a = b
  | .array xs, b => by
    cases b <;> simp [identical]
    rename_i ys
    exact identicalItems_iff xs ys
  | .object ms, b => by
    cases b <;> simp [identical]
    rename_i ns
    exact identicalMembers_iff ms ns
  | .null, b => by cases b <;> simp [identical]
  | .bool _, b => by cases b <;> simp [identical]
  | .int _, b => by cases b <;> simp [identical]
  | .float _, b => by cases b <;> simp [identical]
  | .string _, b => by cases b <;> simp [identical]

theorem identicalItems_iff : ∀ xs ys : List Json, identicalItems xs ys = true ↔ xs = ys
  | [], ys => by cases ys <;> simp [identicalItems]
  | x :: xs, ys => by
    cases ys with
    | nil => simp [identicalItems]
    | cons y ys => simp [identicalItems, identical_iff x y, identicalItems_iff xs ys]

theorem identicalMembers_iff :
    ∀ ms ns : List (String × Json), identicalMembers ms ns = true ↔ ms = ns
  | [], ns => by cases ns <;> simp [identicalMembers]
  | (k, v) :: ms, ns => by
    cases ns with
    | nil => simp [identicalMembers]
    | cons n ns =>
      obtain ⟨l, w⟩ := n
      simp [identicalMembers, identical_iff v w, identicalMembers_iff ms ns, and_assoc]

end

instance : DecidableEq Json := fun a b => decidable_of_iff _ (identical_iff a b)

/-! ## 3. Building documents -/

/-- Text, or `null`. -/
def ofText? : Option String → Json
  | some s => .string s
  | none => .null

/-- A whole number, or `null`. -/
def ofInt? : Option Int → Json
  | some n => .int n
  | none => .null

/-- A list of texts. -/
def ofTexts (items : List String) : Json := .array (items.map .string)

/-! ## 4. Nesting -/

mutual

/-- The number of lists and objects that stand inside each other. -/
def depth : Json → Nat
  | .array items => depthOfItems items + 1
  | .object members => depthOfMembers members + 1
  | _ => 0

/-- The depth of the deepest item. -/
def depthOfItems : List Json → Nat
  | [] => 0
  | v :: rest => max (depth v) (depthOfItems rest)

/-- The depth of the deepest value. -/
def depthOfMembers : List (String × Json) → Nat
  | [] => 0
  | (_, v) :: rest => max (depth v) (depthOfMembers rest)

end

/-- How many lists and objects may be opened inside each other while a text is read (`json.loads`)
or written (`json.dumps`).  The interpreter guards its stack, and the room is what the stack leaves
where it reads or writes, so that no number of levels is a rule of the format; one is always
left. -/
class Room where
  reading : Nat
  writing : Nat
  reading_pos : 0 < reading
  writing_pos : 0 < writing

/-- The room that was left to the program where its answers were recorded. -/
instance Room.recorded : Room := ⟨975, 975, by decide, by decide⟩

end Json

end Steward
