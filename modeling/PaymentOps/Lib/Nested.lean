import Mathlib.Data.List.Basic

/-!
# Nested values

Values nested through dictionaries, lists and tuples, and the scalars at their positions.  A
position is a list of indices: of the members of a dictionary, of the items of a list or a tuple.
-/

/-- A scalar, or a container of values. -/
inductive Nested (K S : Type) where
  | scalar (s : S)
  | dict (members : List (K × Nested K S))
  | list (items : List (Nested K S))
  | tuple (items : List (Nested K S))

namespace Nested

variable {K S : Type}

/-- What a value contains directly, with the key that it is the value of. -/
def children : Nested K S → List (Option K × Nested K S)
  | scalar _ => []
  | dict members => members.map fun m => (some m.1, m.2)
  | list items => items.map fun v => (none, v)
  | tuple items => items.map fun v => (none, v)

/-- The scalar at a position. -/
def scalarAt : List ℕ → Nested K S → Option S
  | [], scalar s => some s
  | [], _ => none
  | i :: p, v => v.children[i]?.bind fun c => scalarAt p c.2

/-- Some key on the way to a position is marked. -/
def isUnder (marked : K → Bool) : List ℕ → Nested K S → Bool
  | [], _ => false
  | i :: p, v => v.children[i]?.any fun c => c.1.any marked || isUnder marked p c.2

theorem scalarAt_cons (i : ℕ) (p : List ℕ) (v : Nested K S) :
    scalarAt (i :: p) v = v.children[i]?.bind fun c => scalarAt p c.2 := by
  cases v <;> rfl

theorem isUnder_cons (marked : K → Bool) (i : ℕ) (p : List ℕ) (v : Nested K S) :
    isUnder marked (i :: p) v =
      v.children[i]?.any fun c => c.1.any marked || isUnder marked p c.2 := by
  cases v <;> rfl

end Nested
