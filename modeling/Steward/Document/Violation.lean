import Steward.Json.Basic
import Steward.Timestamp.Basic

/-!
# What is wrong with a document

Reading a document of a known shape does not stop at the first fault: it collects every violation,
in the order in which the shape declares its members, with the path that leads to it.  Only a
duration without bounds breaks the reading off: then nothing else is reported.

This is what a `ValidationError` collects.
-/

namespace Steward

/-- A step from a document into a part of it. -/
inductive Step where
  | member (key : String)
  | item (index : Nat)
  /-- To the value of a key that is a number. -/
  | numbered (key : Int)
  deriving DecidableEq, Repr

/-- Why a part of a document does not fit its place. -/
inductive Fault where
  /-- A required member is not there. -/
  | missing
  /-- A block of this name has to be an object. -/
  | notBlock (name : String)
  | notText
  | notFlag
  | unreadableFlag
  | notWhole
  | notFinite
  | unreadableWhole
  | fractionalWhole
  | oversizedWhole
  | notList
  | notObject
  /-- A rule beyond the shape refuses the value, in its own words. -/
  | refused (message : String)
  | notTimestamp
  /-- A text is neither a point in time nor a date. -/
  | unreadableTimestamp (problem : Timestamp.Problem)
  /-- A number counts no point in time that can be named. -/
  | remoteTimestamp (problem : Timestamp.Problem)
  deriving DecidableEq, Repr

/-- A fault and the path to it. -/
structure Violation where
  path : List Step
  fault : Fault
  deriving DecidableEq, Repr

/-- A document that does not fit the block of this name. -/
structure Misfit where
  block : String
  violations : List Violation
  deriving DecidableEq, Repr

/-- Why a document was not read. -/
inductive ReadError where
  | misfit (misfit : Misfit)
  /-- A duration in it has no bounds. -/
  | unbounded
  deriving DecidableEq, Repr

/-! ## 1. Texts -/

/-- The short name of a fault. -/
def Fault.label : Fault → String
  | .missing => "missing"
  | .notBlock _ => "model_type"
  | .notText => "string_type"
  | .notFlag => "bool_type"
  | .unreadableFlag => "bool_parsing"
  | .notWhole => "int_type"
  | .notFinite => "finite_number"
  | .unreadableWhole => "int_parsing"
  | .fractionalWhole => "int_from_float"
  | .oversizedWhole => "int_parsing_size"
  | .notList => "list_type"
  | .notObject => "dict_type"
  | .refused _ => "value_error"
  | .notTimestamp => "datetime_type"
  | .unreadableTimestamp _ => "datetime_from_date_parsing"
  | .remoteTimestamp _ => "datetime_parsing"

/-- A fault in words. -/
def Fault.message : Fault → String
  | .missing => "Field required"
  | .notBlock name => "Input should be a valid dictionary or instance of " ++ name
  | .notText => "Input should be a valid string"
  | .notFlag => "Input should be a valid boolean"
  | .unreadableFlag => "Input should be a valid boolean, unable to interpret input"
  | .notWhole => "Input should be a valid integer"
  | .notFinite => "Input should be a finite number"
  | .unreadableWhole => "Input should be a valid integer, unable to parse string as an integer"
  | .fractionalWhole =>
    "Input should be a valid integer, got a number with a fractional part"
  | .oversizedWhole => "Unable to parse input string as an integer, exceeded maximum size"
  | .notList => "Input should be a valid list"
  | .notObject => "Input should be a valid dictionary"
  | .refused message => "Value error, " ++ message
  | .notTimestamp => "Input should be a valid datetime"
  | .unreadableTimestamp p => "Input should be a valid datetime or date, " ++ p.words
  | .remoteTimestamp p => "Input should be a valid datetime, " ++ p.words

/-- A step of a path. -/
def Step.text : Step → String
  | .member key => key
  | .item index => toString index
  | .numbered key => toString key

/-- A violation on two lines: its path, and the fault with its label. -/
def Violation.text (v : Violation) : String :=
  ".".intercalate (v.path.map Step.text) ++ "\n  " ++ v.fault.message ++
    " [type=" ++ v.fault.label ++ "]"

/-- All violations under a heading that counts them. -/
def Misfit.message (m : Misfit) : String :=
  let n := m.violations.length
  let heading := s!"{n} validation error" ++ (if n = 1 then "" else "s") ++ " for " ++ m.block
  "\n".intercalate (heading :: m.violations.map Violation.text)

/-- The text of the error. -/
def ReadError.message : ReadError → String
  | .misfit m => m.message
  | .unbounded => "cannot convert float infinity to integer"

/-! ## 2. Collecting violations -/

/-- A value, or all that is wrong with the document it was read from, or a reading that was broken
off. -/
inductive Checked (α : Type) where
  | valid (value : α)
  | invalid (violations : List Violation)
  | unbounded
  deriving Repr, DecidableEq

namespace Checked

variable {α β : Type}

/-- A single violation at the document itself. -/
def fault (f : Fault) : Checked α := .invalid [⟨[], f⟩]

/-- Apply a function to the value. -/
def map (f : α → β) : Checked α → Checked β
  | .valid a => .valid (f a)
  | .invalid vs => .invalid vs
  | .unbounded => .unbounded

/-- Apply a function that was itself read; the violations of both sides are kept in order, unless
one of the sides was broken off. -/
def ap (f : Checked (α → β)) (x : Checked α) : Checked β :=
  match f, x with
  | .valid f, .valid a => .valid (f a)
  | .valid _, .invalid vs => .invalid vs
  | .invalid vs, .valid _ => .invalid vs
  | .invalid vs, .invalid ws => .invalid (vs ++ ws)
  | .unbounded, _ | _, .unbounded => .unbounded

/-- Put the violations below a step. -/
def below (s : Step) : Checked α → Checked α
  | .valid a => .valid a
  | .invalid vs => .invalid (vs.map fun v => { v with path := s :: v.path })
  | .unbounded => .unbounded

/-- A value, or why the block of this name was not read. -/
def toExcept (block : String) : Checked α → Except ReadError α
  | .valid a => .ok a
  | .invalid vs => .error (.misfit ⟨block, vs⟩)
  | .unbounded => .error .unbounded

@[simp] theorem map_valid (f : α → β) (a : α) : map f (.valid a) = .valid (f a) := rfl
@[simp] theorem ap_valid (f : α → β) (a : α) : ap (.valid f) (.valid a) = .valid (f a) := rfl
@[simp] theorem below_valid (s : Step) (a : α) : below s (.valid a) = .valid a := rfl

/-- Both sides of an application that succeeds were valid. -/
theorem ap_eq_valid {f : Checked (α → β)} {x : Checked α} {b : β} (h : f.ap x = .valid b) :
    ∃ g a, f = .valid g ∧ x = .valid a ∧ b = g a := by
  cases f <;> cases x <;> simp [ap] at h
  exact ⟨_, _, rfl, rfl, h.symm⟩

end Checked

end Steward
