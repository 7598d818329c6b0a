/-
  Scrawl.Pairs — keys with values, in the order in which the keys first came.
-/

namespace Scrawl.Pairs

/-- Sets the value of a key, in its old place if it was there and at the end otherwise. -/
def put {α β : Type} [BEq α] (key : α) (value : β) : List (α × β) → List (α × β)
  | [] => [(key, value)]
  | (k, v) :: rest => if k == key then (k, value) :: rest else (k, v) :: put key value rest

end Scrawl.Pairs
