/-!
# Append-only storage

Items are stored in order and addressed by the number of their place, which never
changes.
-/

namespace StagedQuery

/-- The address of an item. -/
structure Address where
  index : Nat
  deriving DecidableEq, Repr

/-- The text of an address. -/
def Address.text (address : Address) : String :=
  "#" ++ toString address.index

/-- Append-only storage. -/
structure Arena (α : Type) where
  items : Array α

namespace Arena

variable {α : Type}

/-- Storage without items. -/
def empty : Arena α :=
  ⟨#[]⟩

/-- How many items are stored. -/
def size (arena : Arena α) : Nat :=
  arena.items.size

/-- The address that the next item will have. -/
def nextAddress (arena : Arena α) : Address :=
  ⟨arena.size⟩

/-- Stores an item at the next address. -/
def push (arena : Arena α) (item : α) : Arena α :=
  ⟨arena.items.push item⟩

/-- The item at an address. -/
def item? (arena : Arena α) (address : Address) : Option α :=
  arena.items[address.index]?

/-- Changes the item at an address, if there is one. -/
def update (arena : Arena α) (address : Address) (change : α → α) : Arena α :=
  ⟨arena.items.modify address.index change⟩

/-- The items with their addresses, in order. -/
def entries (arena : Arena α) : List (Address × α) :=
  arena.items.toList.zipIdx.map fun (item, index) => (⟨index⟩, item)

/-- Storing an item makes the storage longer by one. -/
@[simp] theorem size_push (arena : Arena α) (item : α) :
    (arena.push item).size = arena.size + 1 := by
  simp [size, push]

/-- Changing an item leaves the size as it is. -/
@[simp] theorem size_update (arena : Arena α) (address : Address) (change : α → α) :
    (arena.update address change).size = arena.size := by
  simp [size, update]

/-- An item is found at the address that was announced for it. -/
@[simp] theorem item?_push_next (arena : Arena α) (item : α) :
    (arena.push item).item? arena.nextAddress = some item := by
  simp [item?, push, nextAddress, size]

end Arena

end StagedQuery
