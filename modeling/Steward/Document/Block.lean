import Steward.Document.Codec

/-!
# Blocks of a document

A block is an object with known members.  A member is looked up by its name in camel case first and
then by its name in snake case, and messages call it by the name under which it was found; members
that the block does not know are passed over.  A required
member has to be there, a defaulted one may be left out but not be null, an optional one may be
both.  Writing uses camel case only and leaves out optional members without a value.

`Block σ α` reads an `α` and writes the members of a `σ`; a block of a structure is built member by
member with `<$>` and `<*>`, so that one declaration gives reader and writer.

A block of a structure is a `SpecModel` with its fields and their aliases; its document is
`to_document`.
-/

namespace Steward

/-- The members of an object that are read as an `α` and written from a `σ`. -/
structure Block (σ α : Type) where
  /-- The names under which members are looked up. -/
  names : List String
  read : Json.Members → Checked α
  write : σ → Json.Members
  /-- The height of the values in free-form parts. -/
  height : σ → Nat

namespace Block

variable {σ α β : Type}

instance : Applicative (Block σ) where
  pure a := ⟨[], fun _ => .valid a, fun _ => [], fun _ => 0⟩
  seq f x := ⟨f.names ++ (x ()).names, fun ms => (f.read ms).ap ((x ()).read ms),
    fun s => f.write s ++ (x ()).write s, fun s => max (f.height s) ((x ()).height s)⟩
  map f x := ⟨x.names, fun ms => (x.read ms).map f, x.write, x.height⟩

/-! ## 1. Members -/

/-- A member with the name under which it stands: the one in camel case wins over the one in snake
case. -/
def find? (ms : Json.Members) (camel snake : String) : Option (String × Json) :=
  match Table.get? ms camel with
  | some v => some (camel, v)
  | none => (Table.get? ms snake).map fun v => (snake, v)

/-- A member that has to be there. -/
def required (camel snake : String) (c : Codec α) (get : σ → α) : Block σ α where
  names := [camel, snake]
  read ms := match find? ms camel snake with
    | some (name, v) => (c.read v).below (.member name)
    | none => (Checked.fault .missing).below (.member camel)
  write s := [(camel, c.write (get s))]
  height s := c.height (get s)

/-- A member with a value of its own where it is left out. -/
def defaulted (camel snake : String) (c : Codec α) (default : α) (get : σ → α) : Block σ α where
  names := [camel, snake]
  read ms := match find? ms camel snake with
    | some (name, v) => (c.read v).below (.member name)
    | none => .valid default
  write s := [(camel, c.write (get s))]
  height s := c.height (get s)

/-- A member that may be left out or be null. -/
def optionalBy (camel snake : String) (c : Codec (Option α)) (get : σ → Option α) :
    Block σ (Option α) where
  names := [camel, snake]
  read ms := match find? ms camel snake with
    | some (name, v) => (c.read v).below (.member name)
    | none => .valid none
  write s := match get s with
    | some a => [(camel, c.write (some a))]
    | none => []
  height s := c.height (get s)

/-- A member that may be left out or be null. -/
def optional (camel snake : String) (c : Codec α) (get : σ → Option α) : Block σ (Option α) :=
  optionalBy camel snake c.nullable get

/-- A member that has to be there, under one name. -/
def fixed (name : String) (c : Codec α) (get : σ → α) : Block σ α := required name name c get

/-- A member that may be left out, under one name. -/
def preset (name : String) (c : Codec α) (default : α) (get : σ → α) : Block σ α :=
  defaulted name name c default get

/-! ## 2. Blocks as parts -/

/-- A block as a part of a document; `name` is what a message calls it. -/
def codec (name : String) (b : Block α α) : Codec α where
  read
    | .object ms => b.read ms
    | _ => .fault (.notBlock name)
  write a := .object (b.write a)
  height := b.height

/-- The members that are stored, if no free-form part is too high (`to_document`). -/
def document [Validator] (b : Block σ α) (s : σ) : Except WriteError Json.Members :=
  if Validator.levels < b.height s then .error (.tooDeep Validator.depthText)
  else .ok (b.write s)

end Block

end Steward
