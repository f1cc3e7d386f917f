import Steward.Table

/-!
# Adapter registries

A registry holds one adapter per type of service.  Adapters that are installed are registered one
after the other; one that cannot be made is passed over.

This is `AdapterRegistry`, with `register_installed_adapters`.
-/

namespace Steward

/-- Adapters by the type of service that they drive. -/
abbrev Registry (α : Type) := Table α

namespace Registry

variable {α : Type}

def register (r : Registry α) (app : String) (adapter : α) : Registry α := Table.set r app adapter

/-- The types of service in order. -/
def services (r : Registry α) : List String :=
  (Table.keys r).mergeSort fun a b => decide (a ≤ b)

/-- The message for a type of service without an adapter. -/
def notRegistered (app : String) : String := app ++ " adapter not registered"

/-- Register what could be made; the registry, and how many adapters were registered. -/
def install (r : Registry α) (made : List (Option (String × α))) : Registry α × Nat :=
  made.foldl (fun (r, n) => fun
    | some (app, adapter) => (register r app adapter, n + 1)
    | none => (r, n)) (r, 0)

end Registry

end Steward
