import PaymentOps.Lib.Csv
import PaymentOps.Mapping.Mapper

/-!
# Selectors

The restricted JSON paths of the mapping engine, resolved on the rows of a CSV file and on what such
paths reach from there.

* `tokenize` reads a path and `resolveJsonPath` follows it;
* `rowOps` are the operations of the mapper on a list of rows;
* `key_chars` says what the names in a path consist of.
-/

namespace PaymentOps.Mapping

open Csv Text

/-! ## Paths -/

/-- The tokens of a path. -/
inductive Token where
  | key (name : String)
  | index (i : ℕ)
  | wildcard
  deriving DecidableEq, Repr

/-- `[A-Za-z0-9_\-]` -/
def isKeyChar (c : Char) : Bool := c.isAlphanum || c = '_' || c = '-'

/-- `int(digits)` -/
def digitsValue (u : Unicode) (digits : List Char) : ℕ :=
  digits.foldl (fun n c => 10 * n + (u.digit c).getD 0) 0

/-- `\[\*\]|\[(\d+)\]` at the start of a text, with what follows it. -/
def bracket (u : Unicode) : List Char → Option (Token × List Char)
  | '[' :: '*' :: ']' :: rest => some (.wildcard, rest)
  | '[' :: cs =>
    let digits := cs.takeWhile fun c => (u.digit c).isSome
    match cs.dropWhile fun c => (u.digit c).isSome with
    | ']' :: rest => if digits = [] then none else some (.index (digitsValue u digits), rest)
    | _ => none
  | _ => none

/-- `re.findall`, in at most `n` steps. -/
def scan (u : Unicode) : ℕ → List Char → List Token
  | 0, _ => []
  | _, [] => []
  | n + 1, c :: cs =>
    let name := (c :: cs).takeWhile isKeyChar
    if name ≠ [] then .key (String.ofList name) :: scan u n ((c :: cs).dropWhile isKeyChar)
    else
      match bracket u (c :: cs) with
      | some (token, rest) => token :: scan u n rest
      | none => scan u n cs

/-- Each step takes at least one character. -/
def tokenize (u : Unicode) (path : String) : List Token := scan u path.toList.length path.toList

/-- A list of rows, and what a path reaches from there. -/
inductive Data where
  | list (rows : List Row)
  | dict (row : Row)
  | scalar (value : Csv.Value)
  deriving DecidableEq, Repr

/-- What one step of a path reaches. -/
def Data.select : Token → Data → List Data
  | .key name, dict row => ((row.get (some name)).map scalar).toList
  | .index i, list rows => (rows[i]?.map dict).toList
  | .index i, scalar (.rest cells) => (cells[i]?.map fun s => scalar (.text s)).toList
  | .wildcard, list rows => rows.map dict
  | .wildcard, dict row => row.map fun p => scalar p.2
  | .wildcard, scalar (.rest cells) => cells.map fun s => scalar (.text s)
  | _, _ => []

/-- The values at the end of a path. -/
def follow (tokens : List Token) (current : List Data) : List Data :=
  tokens.foldl (fun current token => current.flatMap (Data.select token)) current

/-- `resolve_json_path`. -/
def resolveJsonPath (u : Unicode) (data : Data) (path : String) : List Data :=
  follow (tokenize u path) [data]

/-! ## Rows as a source -/

/-- Values as the transforms and the conversions take them. -/
structure ValueOps (Value : Type) where
  ofData : Data → Value
  /-- `value == ""` -/
  isEmpty : Value → Bool
  transform : String → Value → Value
  /-- `str(value)` -/
  str : Value → String
  toMinor : Value → Except ServiceError ℤ

/-- `_get_value`; `none` is `None`. -/
def getValue (u : Unicode) (record : Data) (source : String) : Option Data :=
  match record with
  | .dict row =>
    let value :=
      if startsWith "$" source then (resolveJsonPath u (.dict row) source).head?
      else (row.get (some source)).map .scalar
    value.filter (· ≠ .scalar .missing)
  | .list _ | .scalar _ => none

/-- A list of rows is neither a dictionary nor an element. -/
def rowOps {Value : Type} (u : Unicode) (ops : ValueOps Value) :
    SourceOps (List Row) Data Value where
  asList rows := some (rows.map .dict)
  asDict _ := none
  resolveJsonPath rows path := resolveJsonPath u (.list rows) path
  xpath _ _ := .ok none
  getValue record source := (getValue u record source).map ops.ofData
  ofString s := ops.ofData (.scalar (.text s))
  isEmpty := ops.isEmpty
  transform := ops.transform
  str value := .ok (ops.str value)
  toMinor := ops.toMinor

variable {u : Unicode} {tokens : List Token} {token : Token}

/-! ## Names -/

theorem bracket_ne_key {cs rest : List Char} {name : String} :
    bracket u cs ≠ some (.key name, rest) := by
  intro h
  unfold bracket at h
  split at h
  · cases h
  · dsimp only at h
    split at h
    · split_ifs at h
      cases h
    · cases h
  · cases h

theorem key_chars_scan {n : ℕ} {cs : List Char} {name : String}
    (h : .key name ∈ scan u n cs) : ∀ c ∈ name.toList, isKeyChar c = true := by
  induction n generalizing cs with
  | zero => cases h
  | succ n ih =>
    cases cs with
    | nil => cases h
    | cons c cs =>
      rw [scan] at h
      split_ifs at h with hname
      · rcases List.mem_cons.mp h with heq | h
        · cases heq
          intro d hd
          rw [String.toList_ofList] at hd
          exact List.mem_takeWhile_imp hd
        · exact ih h
      · split at h
        · rename_i token rest hbracket
          rcases List.mem_cons.mp h with rfl | h
          · exact absurd hbracket bracket_ne_key
          · exact ih h
        · exact ih h

/-- The names in a path are letters, digits, underscores and hyphens. -/
theorem key_chars {path name : String} (h : .key name ∈ tokenize u path) :
    ∀ c ∈ name.toList, isKeyChar c = true :=
  key_chars_scan h

/-! ## Where paths lead -/

theorem follow_cons (token : Token) (tokens : List Token) (current : List Data) :
    follow (token :: tokens) current = follow tokens (current.flatMap (Data.select token)) := rfl

@[simp] theorem follow_nil_tokens (current : List Data) : follow [] current = current := rfl

@[simp] theorem follow_nil (tokens : List Token) : follow tokens [] = [] := by
  induction tokens with
  | nil => rfl
  | cons token tokens ih => exact ih

/-- No path leads on from a cell. -/
theorem follow_cells {cells : List String} (h : tokens ≠ []) :
    follow tokens (cells.map fun s => .scalar (.text s)) = [] := by
  obtain ⟨token, tokens, rfl⟩ := List.exists_cons_of_ne_nil h
  have hnone : (cells.map fun s => Data.scalar (.text s)).flatMap (Data.select token) = [] := by
    rw [List.flatMap_map]
    apply List.flatMap_eq_nil_iff.mpr
    intro s _
    cases token <;> rfl
  rw [follow_cons, hnone, follow_nil]

end PaymentOps.Mapping
