import PaymentOps.Lib.Calendar
import PaymentOps.Lib.Decimal

/-!
# JSON values and `json.dumps`

The values that Python's encoder accepts.  A `Decimal` and a `date` are not among them: the encoder
raises `TypeError`, wherever in a list or a dictionary they stand.
-/

/-- A JSON value; objects keep the order of their members. -/
inductive Json where
  | null
  | bool (b : Bool)
  | num (q : ℚ)
  | str (s : String)
  | arr (items : List Json)
  | obj (members : List (String × Json))
  deriving Inhabited

/-- A Python value; an enumeration of strings is the string. -/
inductive PyValue where
  | none
  | bool (b : Bool)
  | str (s : String)
  | num (q : ℚ)
  | decimal (d : Decimal)
  | date (d : Date)
  | list (items : List PyValue)
  | dict (members : List (String × PyValue))

namespace PyValue

/-! ## Encoding -/

mutual

/-- `json.dumps(v)`, `none` where it raises. -/
def dumps : PyValue → Option Json
  | none => some .null
  | bool b => some (.bool b)
  | str s => some (.str s)
  | num q => some (.num q)
  | decimal _ => Option.none
  | date _ => Option.none
  | list items => (dumpsItems items).map .arr
  | dict members => (dumpsMembers members).map .obj

/-- The items of a list, unless one is no JSON. -/
def dumpsItems : List PyValue → Option (List Json)
  | [] => some []
  | v :: vs => (dumps v).bind fun j => (dumpsItems vs).map (j :: ·)

/-- The members of a dictionary, unless one is no JSON. -/
def dumpsMembers : List (String × PyValue) → Option (List (String × Json))
  | [] => some []
  | (k, v) :: members => (dumps v).bind fun j => (dumpsMembers members).map ((k, j) :: ·)

end

/-- No decimal and no date occurs in the value. -/
inductive Representable : PyValue → Prop
  | none : Representable none
  | bool (b) : Representable (bool b)
  | str (s) : Representable (str s)
  | num (q) : Representable (num q)
  | list {items} : (∀ v ∈ items, Representable v) → Representable (list items)
  | dict {members} : (∀ p ∈ members, Representable p.2) → Representable (dict members)

theorem representable_list {items : List PyValue} :
    Representable (list items) ↔ ∀ v ∈ items, Representable v := by
  constructor
  · intro h
    cases h with
    | list h => exact h
  · exact .list

theorem representable_dict {members : List (String × PyValue)} :
    Representable (dict members) ↔ ∀ p ∈ members, Representable p.2 := by
  constructor
  · intro h
    cases h with
    | dict h => exact h
  · exact .dict

theorem isSome_cons_iff {α β : Type} {o : Option α} {rest : Option (List β)} (f : α → β) :
    (o.bind fun a => rest.map (f a :: ·)).isSome ↔ o.isSome ∧ rest.isSome := by
  cases o with
  | none => simp
  | some a => simp

mutual

/-- The encoder accepts exactly the values that JSON can represent. -/
theorem dumps_isSome : ∀ v : PyValue, (dumps v).isSome ↔ Representable v
  | none => ⟨fun _ => .none, fun _ => rfl⟩
  | bool b => ⟨fun _ => .bool b, fun _ => rfl⟩
  | str s => ⟨fun _ => .str s, fun _ => rfl⟩
  | num q => ⟨fun _ => .num q, fun _ => rfl⟩
  | decimal d => ⟨fun h => by simp [dumps] at h, fun h => nomatch h⟩
  | date d => ⟨fun h => by simp [dumps] at h, fun h => nomatch h⟩
  | list items => by
    rw [dumps, Option.isSome_map, dumpsItems_isSome items, representable_list]
  | dict members => by
    rw [dumps, Option.isSome_map, dumpsMembers_isSome members, representable_dict]

theorem dumpsItems_isSome : ∀ vs : List PyValue,
    (dumpsItems vs).isSome ↔ ∀ v ∈ vs, Representable v
  | [] => by simp [dumpsItems]
  | v :: vs => by
    rw [dumpsItems, isSome_cons_iff, dumps_isSome v, dumpsItems_isSome vs, List.forall_mem_cons]

theorem dumpsMembers_isSome : ∀ members : List (String × PyValue),
    (dumpsMembers members).isSome ↔ ∀ p ∈ members, Representable p.2
  | [] => by simp [dumpsMembers]
  | (k, v) :: members => by
    rw [dumpsMembers, isSome_cons_iff, dumps_isSome v, dumpsMembers_isSome members,
      List.forall_mem_cons]

end

end PyValue
