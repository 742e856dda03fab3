import PaymentOps.Lib.Decimal

/-!
# Passwords

A stored hash names its algorithm, its iterations, the salt and the digest.  The primitives of the
standard library are a parameter, `Primitives`; what is stored and how it is read is not.

`verifyPassword_hashPassword` says which passwords a stored hash accepts.
-/

namespace PaymentOps.Auth

open Text

/-- The primitives that the login rests on. -/
structure Primitives where
  unicode : Unicode
  /-- `str.lower` -/
  lower : String → String
  /-- `hashlib.pbkdf2_hmac("sha256", password, salt, iterations)`, `none` where it raises a
  `ValueError` -/
  pbkdf2 : String → List (Fin 256) → ℤ → Option (List (Fin 256))
  /-- `hashlib.sha256(token).hexdigest()` -/
  sha256 : String → String

/-- The algorithm that a stored password names. -/
def pbkdf2Algorithm : String := "pbkdf2_sha256"

/-- The iterations of a new password's hash. -/
def pbkdf2Iterations : ℕ := 600000

/-! ## Hexadecimal digits -/

/-- The digit of a half byte. -/
def hexChar (n : ℕ) : Char := if n < 10 then Char.ofNat (48 + n) else Char.ofNat (87 + n)

/-- `b.hex()` -/
def hex (bytes : List (Fin 256)) : String :=
  String.ofList (bytes.flatMap fun b => [hexChar (b.val / 16), hexChar (b.val % 16)])

/-- The value of a hexadecimal digit in either case. -/
def hexDigit (c : Char) : Option ℕ :=
  let n := c.toNat
  if 48 ≤ n ∧ n ≤ 57 then some (n - 48)
  else if 97 ≤ n ∧ n ≤ 102 then some (n - 87)
  else if 65 ≤ n ∧ n ≤ 70 then some (n - 55)
  else none

/-- The white space of C. -/
def isAsciiSpace (c : Char) : Bool := c = ' ' || (9 ≤ c.toNat && c.toNat ≤ 13)

/-- `bytes.fromhex`, which skips white space between the bytes, `none` where it raises. -/
def fromHexChars : List Char → Option (List (Fin 256))
  | [] => some []
  | [c] => if isAsciiSpace c then some [] else none
  | c :: d :: cs =>
    if isAsciiSpace c then fromHexChars (d :: cs)
    else do
      let high ← hexDigit c
      let low ← hexDigit d
      let rest ← fromHexChars cs
      pure (Fin.ofNat 256 (16 * high + low) :: rest)

/-- `bytes.fromhex`. -/
def fromHex (s : String) : Option (List (Fin 256)) := fromHexChars s.toList

theorem hexDigit_hexChar {n : ℕ} (h : n < 16) : hexDigit (hexChar n) = some n := by
  have hall : ∀ m : Fin 16, hexDigit (hexChar m.val) = some m.val := by decide
  exact hall ⟨n, h⟩

theorem isAsciiSpace_hexChar {n : ℕ} (h : n < 16) : isAsciiSpace (hexChar n) = false := by
  have hall : ∀ m : Fin 16, isAsciiSpace (hexChar m.val) = false := by decide
  exact hall ⟨n, h⟩

theorem hexChar_ne_dollar {n : ℕ} (h : n < 16) : hexChar n ≠ '$' := by
  have hall : ∀ m : Fin 16, hexChar m.val ≠ '$' := by decide
  exact hall ⟨n, h⟩

theorem fromHex_hex (bytes : List (Fin 256)) : fromHex (hex bytes) = some bytes := by
  rw [fromHex, hex, String.toList_ofList]
  induction bytes with
  | nil => rfl
  | cons b bytes ih =>
    have hhigh : b.val / 16 < 16 := by omega
    have hlow : b.val % 16 < 16 := by omega
    have hvalue : Fin.ofNat 256 (16 * (b.val / 16) + b.val % 16) = b := by
      apply Fin.ext
      simp only [Fin.val_ofNat]
      omega
    rw [List.flatMap_cons, List.cons_append, List.cons_append, List.nil_append, fromHexChars,
      if_neg (by simp [isAsciiSpace_hexChar hhigh]), hexDigit_hexChar hhigh,
      hexDigit_hexChar hlow, ih]
    exact congrArg (fun b' => some (b' :: bytes)) hvalue

theorem dollar_not_mem_hex (bytes : List (Fin 256)) : '$' ∉ (hex bytes).toList := by
  rw [hex, String.toList_ofList]
  intro h
  obtain ⟨b, -, hmem⟩ := List.mem_flatMap.mp h
  rcases List.mem_cons.mp hmem with heq | hmem
  · exact hexChar_ne_dollar (n := b.val / 16) (by omega) heq.symm
  · exact hexChar_ne_dollar (n := b.val % 16) (by omega) (List.mem_singleton.mp hmem).symm

/-! ## Stored hashes -/

variable (p : Primitives)

/-- The stored form of a password, `none` where the digest can not be computed. -/
def hashPassword (salt : List (Fin 256)) (password : String) : Option String :=
  (p.pbkdf2 password salt pbkdf2Iterations).map fun digest =>
    join "$" [pbkdf2Algorithm, toString pbkdf2Iterations, hex salt, hex digest]

/-- `stored.split("$", 3)`, `none` where there are fewer parts. -/
def splitStored (stored : String) : Option (String × String × String × String) :=
  match split '$' stored with
  | algorithm :: iterations :: salt :: digest :: rest =>
    some (algorithm, iterations, salt, join "$" (digest :: rest))
  | _ => none

/-- `verify_password`: false for a stored text that is no hash. -/
def verifyPassword (password stored : String) : Bool :=
  match splitStored stored with
  | none => false
  | some (algorithm, iterations, saltHex, digestHex) =>
    algorithm = pbkdf2Algorithm &&
      (do
        let salt ← fromHex saltHex
        let expected ← fromHex digestHex
        let iterations ← Text.int p.unicode iterations
        let actual ← p.pbkdf2 password salt iterations
        pure (decide (actual = expected))).getD false

/-- A stored hash accepts the passwords that have its digest. -/
theorem verifyPassword_hashPassword {p : Primitives} {salt : List (Fin 256)}
    {password stored : String} (h : hashPassword p salt password = some stored)
    (attempt : String) :
    verifyPassword p attempt stored =
      decide (p.pbkdf2 attempt salt pbkdf2Iterations =
        p.pbkdf2 password salt pbkdf2Iterations) := by
  obtain ⟨digest, hdigest, rfl⟩ := Option.map_eq_some_iff.mp h
  have hsplit : splitStored
      (join "$" [pbkdf2Algorithm, toString pbkdf2Iterations, hex salt, hex digest]) =
        some (pbkdf2Algorithm, toString pbkdf2Iterations, hex salt, hex digest) := by
    have hparts : ∀ s ∈ [pbkdf2Algorithm, toString pbkdf2Iterations, hex salt, hex digest],
        '$' ∉ s.toList := by
      intro s hs
      rcases List.mem_cons.mp hs with rfl | hs
      · decide
      rcases List.mem_cons.mp hs with rfl | hs
      · decide
      rcases List.mem_cons.mp hs with rfl | hs
      · exact dollar_not_mem_hex salt
      · rw [List.mem_singleton.mp hs]
        exact dollar_not_mem_hex digest
    have hlist := split_join (List.cons_ne_nil _ _) hparts
    have hdollar : String.singleton '$' = "$" := rfl
    rw [hdollar] at hlist
    rw [splitStored, hlist]
    rfl
  rw [verifyPassword, hsplit]
  simp only [fromHex_hex, int_toString, decide_true, Bool.true_and, Option.bind_eq_bind,
    Option.bind_some, hdigest]
  cases hattempt : p.pbkdf2 attempt salt pbkdf2Iterations <;> simp

/-- Passwords that are their own digests, and tokens that are their own hashes. -/
def plainPrimitives : Primitives where
  unicode := .ascii
  lower s := s
  pbkdf2 password _ _ := some (password.toList.map fun c => Fin.ofNat 256 c.toNat)
  sha256 token := token

end PaymentOps.Auth
