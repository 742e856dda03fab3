import PaymentOps.Lib.Decimal
import PaymentOps.Mapping.Selectors
import PaymentOps.Mapping.Validator

/-!
# JSON paths

The restricted JSON paths of the mapping engine on decoded JSON.  The tokenizer takes what it
recognizes and skips everything else, one character at a time (`parts`).

* `tokenize_render`: a rendered path is read back;
* `follow_append`: a path leads where its two halves lead one after the other;
* `accounted_iff`: the tokenizer skips nothing but the `$` and the dots exactly in a `Plain`
  selector, and nothing else checks a selector.
-/

namespace PaymentOps.Mapping

open Text

/-! ## Decoded JSON -/

/-- What `json.loads` returns; `F` are the floats, an infinity and NaN among them. -/
inductive JsonValue (F : Type) where
  | null
  | bool (b : Bool)
  | int (n : ℤ)
  | float (f : F)
  | str (s : String)
  | list (items : List (JsonValue F))
  | dict (members : List (String × JsonValue F))

namespace JsonValue

variable {F : Type}

/-- What one step of a path reaches. -/
def select : Token → JsonValue F → List (JsonValue F)
  | .key name, dict members => (Dict.get members name).toList
  | .index i, list items => items[i]?.toList
  | .wildcard, list items => items
  | .wildcard, dict members => members.map (·.2)
  | _, _ => []

/-- The values at the end of a path. -/
def follow (tokens : List Token) (current : List (JsonValue F)) : List (JsonValue F) :=
  tokens.foldl (fun current token => current.flatMap (select token)) current

theorem follow_cons (token : Token) (tokens : List Token) (current : List (JsonValue F)) :
    follow (token :: tokens) current = follow tokens (current.flatMap (select token)) := rfl

/-- A path leads from each value by itself. -/
theorem follow_flatMap (tokens : List Token) (current : List (JsonValue F)) :
    follow tokens current = current.flatMap fun v => follow tokens [v] := by
  induction tokens generalizing current with
  | nil => simp [follow]
  | cons token tokens ih =>
    rw [follow_cons, ih, List.flatMap_assoc]
    refine List.flatMap_congr fun v _ => ?_
    rw [follow_cons, List.flatMap_singleton, ← ih]

theorem follow_append (tokens₁ tokens₂ : List Token) (current : List (JsonValue F)) :
    follow (tokens₁ ++ tokens₂) current =
      (follow tokens₁ current).flatMap fun v => follow tokens₂ [v] := by
  rw [← follow_flatMap]
  exact List.foldl_append

end JsonValue

/-! ## What the tokenizer sees -/

/-- A piece of a path: a token with its text, or a character that is skipped. -/
inductive Part where
  | token (t : Token) (text : List Char)
  | skipped (c : Char)
  deriving DecidableEq, Repr

/-- The text of a piece. -/
def Part.text : Part → List Char
  | token _ text => text
  | skipped c => [c]

/-- The token of a piece, if it is one. -/
def Part.token? : Part → Option Token
  | token t _ => some t
  | skipped _ => none

/-- `scan` with everything that it passes. -/
def scanParts (u : Unicode) : ℕ → List Char → List Part
  | 0, _ => []
  | _, [] => []
  | n + 1, c :: cs =>
    let name := (c :: cs).takeWhile isKeyChar
    if name ≠ [] then
      .token (.key (String.ofList name)) name :: scanParts u n ((c :: cs).dropWhile isKeyChar)
    else
      match bracket u (c :: cs) with
      | some (t, rest) =>
        .token t ((c :: cs).take ((c :: cs).length - rest.length)) :: scanParts u n rest
      | none => .skipped c :: scanParts u n cs

/-- The pieces of a path. -/
def parts (u : Unicode) (cs : List Char) : List Part := scanParts u cs.length cs

/-- `int` reads at most 4300 digits. -/
def maxDigits : ℕ := 4300

/-- The digits of an index are few enough to be read. -/
def Part.Readable : Part → Prop
  | token (.index _) text => text.length ≤ maxDigits + 2
  | _ => True

instance (p : Part) : Decidable p.Readable :=
  match p with
  | .token (.index _) text => inferInstanceAs (Decidable (text.length ≤ maxDigits + 2))
  | .token (.key _) _ => .isTrue trivial
  | .token .wildcard _ => .isTrue trivial
  | .skipped _ => .isTrue trivial

/-- Every index of the path can be read. -/
def Readable (u : Unicode) (path : String) : Prop := ∀ p ∈ parts u path.toList, p.Readable

instance (u : Unicode) (path : String) : Decidable (Readable u path) :=
  inferInstanceAs (Decidable (∀ p ∈ parts u path.toList, p.Readable))

/-- `_tokenize`, which raises when `int` refuses an index. -/
def tokenizePath (u : Unicode) (path : String) : Except ServiceError (List Token) :=
  if Readable u path then .ok (tokenize u path)
  else .error (.valueError "Exceeds the limit (4300 digits) for integer string conversion")

/-- Names, dots, `[*]` and `[digits]`. -/
inductive Plain (u : Unicode) : List Char → Prop
  | nil : Plain u []
  | dot {cs : List Char} : Plain u cs → Plain u ('.' :: cs)
  | name {c : Char} {cs : List Char} : isKeyChar c → Plain u cs → Plain u (c :: cs)
  | wildcard {cs : List Char} : Plain u cs → Plain u ('[' :: '*' :: ']' :: cs)
  | index {digits cs : List Char} : digits ≠ [] → (∀ d ∈ digits, (u.digit d).isSome) →
      Plain u cs → Plain u ('[' :: digits ++ ']' :: cs)

/-- The tokenizer skips nothing but dots. -/
def SkipsDots (u : Unicode) (cs : List Char) : Prop := ∀ c, .skipped c ∈ parts u cs → c = '.'

/-- Every character of a selector but the leading `$` and the dots belongs to a token. -/
def Accounted (u : Unicode) (selector : String) : Prop :=
  ∃ cs, selector.toList = '$' :: cs ∧ parts u selector.toList = .skipped '$' :: parts u cs ∧
    SkipsDots u cs

variable {u : Unicode} {c : Char} {cs rest : List Char} {t : Token}

/-- A bracket is `[*]`, or an index in digits of any script. -/
theorem bracket_eq_some : bracket u cs = some (t, rest) ↔
    cs = '[' :: '*' :: ']' :: rest ∧ t = .wildcard ∨
      ∃ digits : List Char, digits ≠ [] ∧ (∀ d ∈ digits, (u.digit d).isSome) ∧
        cs = '[' :: digits ++ ']' :: rest ∧ t = .index (digitsValue u digits) := by
  have hstar : u.digit '*' = none := by
    rw [u.digit_ascii '*' (by decide)]
    rfl
  have hclose : u.digit ']' = none := by
    rw [u.digit_ascii ']' (by decide)]
    rfl
  constructor
  · intro h
    unfold bracket at h
    split at h
    · cases h
      exact .inl ⟨rfl, rfl⟩
    · rename_i cs' hne
      dsimp only at h
      split at h
      · rename_i rest' hdrop
        split_ifs at h with hdigits
        cases h
        refine .inr ⟨_, hdigits, fun d hd => ?_, ?_, rfl⟩
        · exact List.mem_takeWhile_imp (p := fun c => (u.digit c).isSome) hd
        · rw [List.cons_append, ← hdrop, List.takeWhile_append_dropWhile]
      · cases h
    · cases h
  · rintro (⟨rfl, rfl⟩ | ⟨digits, hne, hdigits, rfl, rfl⟩)
    · rfl
    · obtain ⟨d, ds, rfl⟩ := List.exists_cons_of_ne_nil hne
      have hd : d ≠ '*' := by
        rintro rfl
        have := hdigits '*' List.mem_cons_self
        rw [hstar] at this
        cases this
      have htake : (d :: ds ++ ']' :: rest).takeWhile (fun c => (u.digit c).isSome) = d :: ds := by
        rw [List.takeWhile_append_of_pos hdigits, List.takeWhile_cons_of_neg (by simp [hclose]),
          List.append_nil]
      have hdrop : (d :: ds ++ ']' :: rest).dropWhile (fun c => (u.digit c).isSome) =
          ']' :: rest := by
        rw [List.dropWhile_append_of_pos hdigits, List.dropWhile_cons_of_neg (by simp [hclose])]
      unfold bracket
      split
      · rename_i heq
        simp only [List.cons_append, List.cons.injEq] at heq
        exact absurd heq.2.1 hd
      · rename_i cs' hne' heq
        obtain rfl : d :: ds ++ ']' :: rest = cs' := by
          simpa using heq
        dsimp only
        rw [htake, hdrop]
        simp
      · rename_i h1 h2
        exact absurd rfl (h2 (d :: ds ++ ']' :: rest))

theorem length_bracket (h : bracket u cs = some (t, rest)) : rest.length < cs.length := by
  rcases bracket_eq_some.mp h with ⟨rfl, -⟩ | ⟨digits, -, -, rfl, -⟩
  · simp only [List.length_cons]
    omega
  · simp only [List.length_cons, List.length_append]
    omega

/-! ## One step -/

/-- Enough steps are enough. -/
theorem scanParts_fuel {n m : ℕ} (hn : cs.length ≤ n) (hm : cs.length ≤ m) :
    scanParts u n cs = scanParts u m cs := by
  induction hlen : cs.length using Nat.strong_induction_on generalizing cs n m with
  | _ k ih =>
    cases cs with
    | nil => cases n <;> cases m <;> rfl
    | cons c cs =>
      rw [List.length_cons] at hn hm hlen
      obtain ⟨n, rfl⟩ := Nat.exists_eq_succ_of_ne_zero (by omega : n ≠ 0)
      obtain ⟨m, rfl⟩ := Nat.exists_eq_succ_of_ne_zero (by omega : m ≠ 0)
      rw [scanParts, scanParts]
      split_ifs with hname
      · have hshort : ((c :: cs).dropWhile isKeyChar).length < (c :: cs).length := by
          have hsum := congrArg List.length
            (List.takeWhile_append_dropWhile (p := isKeyChar) (l := c :: cs))
          have hpos := List.length_pos_iff.mpr hname
          rw [List.length_append] at hsum
          omega
        rw [List.length_cons] at hshort
        exact congrArg (List.cons _) (ih _ (by omega) (by omega) (by omega) rfl)
      · split
        · rename_i t rest hbracket
          have hshort := length_bracket hbracket
          rw [List.length_cons] at hshort
          exact congrArg (List.cons _) (ih _ (by omega) (by omega) (by omega) rfl)
        · exact congrArg (List.cons _) (ih _ (by omega) (by omega) (by omega) rfl)

theorem scanParts_eq {n : ℕ} (h : cs.length ≤ n) : scanParts u n cs = parts u cs :=
  scanParts_fuel h le_rfl

@[simp] theorem parts_nil : parts u [] = [] := rfl

theorem takeWhile_cons_ne_nil (h : isKeyChar c) : (c :: cs).takeWhile isKeyChar ≠ [] := by
  rw [List.takeWhile_cons_of_pos h]
  exact List.cons_ne_nil _ _

/-- A name is taken as a whole. -/
theorem parts_of_keyChar (h : isKeyChar c) : parts u (c :: cs) =
    .token (.key (String.ofList ((c :: cs).takeWhile isKeyChar))) ((c :: cs).takeWhile isKeyChar) ::
      parts u ((c :: cs).dropWhile isKeyChar) := by
  have hshort : ((c :: cs).dropWhile isKeyChar).length ≤ cs.length := by
    rw [List.dropWhile_cons_of_pos h]
    exact (List.dropWhile_sublist _).length_le
  rw [parts, List.length_cons, scanParts]
  rw [if_pos (takeWhile_cons_ne_nil h), scanParts_eq hshort]

theorem parts_of_bracket (h : isKeyChar c = false)
    (hbracket : bracket u (c :: cs) = some (t, rest)) :
    parts u (c :: cs) =
      .token t ((c :: cs).take ((c :: cs).length - rest.length)) :: parts u rest := by
  have hshort := length_bracket hbracket
  rw [List.length_cons] at hshort
  rw [parts, List.length_cons, scanParts]
  rw [if_neg (by simp [h]), hbracket]
  dsimp only
  rw [scanParts_eq (by omega), List.length_cons]

theorem parts_of_skipped (h : isKeyChar c = false) (hbracket : bracket u (c :: cs) = none) :
    parts u (c :: cs) = .skipped c :: parts u cs := by
  rw [parts, List.length_cons, scanParts]
  rw [if_neg (by simp [h]), hbracket]
  dsimp only
  rw [scanParts_eq le_rfl]

/-- Every text is empty, or starts with a name, with a bracket or with a character to skip. -/
theorem partsInduction {motive : List Char → Prop} (nil : motive [])
    (name : ∀ c cs, isKeyChar c → motive ((c :: cs).dropWhile isKeyChar) → motive (c :: cs))
    (bracket : ∀ c cs t rest, isKeyChar c = false → bracket u (c :: cs) = some (t, rest) →
      motive rest → motive (c :: cs))
    (skipped : ∀ c cs, isKeyChar c = false → Mapping.bracket u (c :: cs) = none → motive cs →
      motive (c :: cs)) (cs : List Char) : motive cs := by
  induction hlen : cs.length using Nat.strong_induction_on generalizing cs with
  | _ k ih =>
    cases cs with
    | nil => exact nil
    | cons c cs =>
      rw [List.length_cons] at hlen
      cases hc : isKeyChar c with
      | true =>
        have hshort : ((c :: cs).dropWhile isKeyChar).length ≤ cs.length := by
          rw [List.dropWhile_cons_of_pos hc]
          exact (List.dropWhile_sublist _).length_le
        exact name c cs hc (ih _ (by omega) _ rfl)
      | false =>
        cases hbracket : Mapping.bracket u (c :: cs) with
        | none => exact skipped c cs hc hbracket (ih _ (by omega) _ rfl)
        | some r =>
          have hshort := length_bracket hbracket
          rw [List.length_cons] at hshort
          exact bracket c cs r.1 r.2 hc hbracket (ih _ (by omega) _ rfl)

theorem filterMap_scanParts (n : ℕ) (cs : List Char) :
    (scanParts u n cs).filterMap Part.token? = scan u n cs := by
  induction n generalizing cs with
  | zero => rfl
  | succ n ih =>
    cases cs with
    | nil => rfl
    | cons c cs =>
      rw [scanParts, scan]
      split_ifs
      · rw [List.filterMap_cons, ih]
        rfl
      · cases bracket u (c :: cs) with
        | none =>
          rw [List.filterMap_cons, ih]
          rfl
        | some r =>
          rw [List.filterMap_cons, ih]
          rfl

/-- The tokens of a path are those among its pieces. -/
theorem tokenize_eq (path : String) :
    tokenize u path = (parts u path.toList).filterMap Part.token? :=
  (filterMap_scanParts _ _).symm

/-! ## Selectors that are read as written -/

theorem bracket_eq_none (h : c ≠ '[') : bracket u (c :: cs) = none := by
  cases hb : bracket u (c :: cs) with
  | none => rfl
  | some r =>
    rcases bracket_eq_some.mp hb with ⟨heq, -⟩ | ⟨digits, -, -, heq, -⟩
    · exact absurd (List.cons.inj heq).1 h
    · exact absurd (List.cons.inj heq).1 h

theorem plain_name {name : List Char} (h : ∀ c ∈ name, isKeyChar c) (hrest : Plain u rest) :
    Plain u (name ++ rest) := by
  induction name with
  | nil => exact hrest
  | cons c name ih =>
    exact .name (h c List.mem_cons_self) (ih fun d hd => h d (List.mem_cons_of_mem c hd))

theorem plain_of_bracket (h : bracket u cs = some (t, rest)) (hrest : Plain u rest) :
    Plain u cs := by
  rcases bracket_eq_some.mp h with ⟨rfl, -⟩ | ⟨digits, hne, hdigits, rfl, -⟩
  · exact .wildcard hrest
  · exact .index hne hdigits hrest

/-- What is left of a plain text after its leading name is plain. -/
theorem plain_dropWhile (h : Plain u cs) : Plain u (cs.dropWhile isKeyChar) := by
  induction h with
  | nil => exact .nil
  | dot h _ => exact .dot h
  | name hc _ ih =>
    rw [List.dropWhile_cons_of_pos hc]
    exact ih
  | wildcard h _ => exact .wildcard h
  | index hne hdigits h _ => exact .index hne hdigits h

/-- What is left of a plain text after its leading bracket is plain, and no other character but a
dot is left over. -/
theorem plain_cons (h : Plain u (c :: cs)) (hc : isKeyChar c = false) :
    c = '.' ∧ bracket u (c :: cs) = none ∧ Plain u cs ∨
      ∃ t rest, bracket u (c :: cs) = some (t, rest) ∧ Plain u rest := by
  cases h with
  | dot h => exact .inl ⟨rfl, bracket_eq_none (by decide), h⟩
  | name hkey h =>
    rw [hkey] at hc
    cases hc
  | wildcard h => exact .inr ⟨_, _, bracket_eq_some.mpr (.inl ⟨rfl, rfl⟩), h⟩
  | index hne hdigits h =>
    exact .inr ⟨_, _, bracket_eq_some.mpr (.inr ⟨_, hne, hdigits, rfl, rfl⟩), h⟩

theorem skipsDots_iff (cs : List Char) : SkipsDots u cs ↔ Plain u cs := by
  unfold SkipsDots
  induction cs using partsInduction (u := u) with
  | nil => exact iff_of_true nofun .nil
  | name c cs hc ih =>
    rw [parts_of_keyChar hc]
    simp only [List.mem_cons, reduceCtorEq, false_or]
    rw [ih]
    constructor
    · intro h
      rw [← List.takeWhile_append_dropWhile (p := isKeyChar) (l := c :: cs)]
      exact plain_name (fun d hd => List.mem_takeWhile_imp hd) h
    · exact plain_dropWhile
  | bracket c cs t rest hc hbracket ih =>
    rw [parts_of_bracket hc hbracket]
    simp only [List.mem_cons, reduceCtorEq, false_or]
    rw [ih]
    constructor
    · exact plain_of_bracket hbracket
    · intro h
      rcases plain_cons h hc with ⟨-, hnone, -⟩ | ⟨t', rest', hsome, hrest⟩
      · rw [hbracket] at hnone
        cases hnone
      · rw [hbracket] at hsome
        cases hsome
        exact hrest
  | skipped c cs hc hbracket ih =>
    rw [parts_of_skipped hc hbracket]
    simp only [List.mem_cons, Part.skipped.injEq]
    constructor
    · intro h
      obtain rfl : c = '.' := h c (.inl rfl)
      exact .dot (ih.mp fun d hd => h d (.inr hd))
    · rintro h d (rfl | hd)
      · rcases plain_cons h hc with ⟨hdot, -, -⟩ | ⟨t', rest', hsome, -⟩
        · exact hdot
        · rw [hbracket] at hsome
          cases hsome
      · rcases plain_cons h hc with ⟨-, -, hplain⟩ | ⟨t', rest', hsome, -⟩
        · exact ih.mpr hplain d hd
        · rw [hbracket] at hsome
          cases hsome

theorem parts_dollar (cs : List Char) : parts u ('$' :: cs) = .skipped '$' :: parts u cs :=
  parts_of_skipped (by decide) (bracket_eq_none (by decide))

/-- The tokenizer accounts for a selector exactly when it is a `$` and a plain text. -/
theorem accounted_iff (selector : String) : Accounted u selector ↔
    ∃ cs, selector.toList = '$' :: cs ∧ Plain u cs := by
  unfold Accounted
  constructor
  · rintro ⟨cs, hcs, -, hskips⟩
    exact ⟨cs, hcs, (skipsDots_iff cs).mp hskips⟩
  · rintro ⟨cs, hcs, hplain⟩
    exact ⟨cs, hcs, by rw [hcs, parts_dollar], (skipsDots_iff cs).mpr hplain⟩

/-! ## Rendered paths -/

/-- A token as a path writes it. -/
def Token.chars : Token → List Char
  | key name => '.' :: name.toList
  | index i => '[' :: (toString i).toList ++ [']']
  | wildcard => ['[', '*', ']']

/-- `$` and the tokens. -/
def render (tokens : List Token) : String := String.ofList ('$' :: tokens.flatMap Token.chars)

/-- A member name consists of letters, digits, underscores and hyphens. -/
def Token.Written : Token → Prop
  | key name => name ≠ "" ∧ ∀ c ∈ name.toList, isKeyChar c
  | _ => True

/-- How the tokenizer sees a rendered token. -/
def Token.parts : Token → List Part
  | key name => [.skipped '.', .token (.key name) name.toList]
  | index i => [.token (.index i) ('[' :: (toString i).toList ++ [']'])]
  | wildcard => [.token .wildcard ['[', '*', ']']]

theorem digitsValue_toString (u : Unicode) (i : ℕ) : digitsValue u (toString i).toList = i := by
  have hdigit : ∀ l : List Char, (∀ c ∈ l, c.isDigit) → ∀ n : ℕ,
      l.foldl (fun n c => 10 * n + (u.digit c).getD 0) n =
        (l.map fun c => c.toNat - 48).foldl (fun n d => 10 * n + d) n := by
    intro l hl
    induction l with
    | nil => exact fun n => rfl
    | cons c l ih =>
      intro n
      rw [List.foldl_cons, List.map_cons, List.foldl_cons, digit_of_isDigit (hl c (by simp)),
        Option.getD_some, ih fun d hd => hl d (by simp [hd])]
  have hvalue := Text.ofDigits_toDigits i
  rw [digitsValue, toList_toString, hdigit _ fun c hc =>
    Nat.isDigit_of_mem_toDigits (by decide) (by decide) hc]
  exact hvalue

theorem isSome_digit_toString {i : ℕ} : ∀ d ∈ (toString i).toList, (u.digit d).isSome := by
  intro d hd
  rw [digit_of_isDigit (isDigit_of_mem_toString hd)]
  rfl

/-- No name goes on into the next token. -/
theorem takeWhile_chars (tokens : List Token) :
    (tokens.flatMap Token.chars).takeWhile isKeyChar = [] := by
  cases tokens with
  | nil => rfl
  | cons t tokens => cases t <;> rfl

theorem dropWhile_chars (tokens : List Token) :
    (tokens.flatMap Token.chars).dropWhile isKeyChar = tokens.flatMap Token.chars := by
  have h := List.takeWhile_append_dropWhile (p := isKeyChar) (l := tokens.flatMap Token.chars)
  rwa [takeWhile_chars, List.nil_append] at h

theorem parts_chars {tokens : List Token} (h : ∀ t ∈ tokens, t.Written) :
    parts u (tokens.flatMap Token.chars) = tokens.flatMap Token.parts := by
  induction tokens with
  | nil => rfl
  | cons t tokens ih =>
    have hrest := ih fun s hs => h s (List.mem_cons_of_mem t hs)
    rw [List.flatMap_cons, List.flatMap_cons, ← hrest]
    cases t with
    | key name =>
      obtain ⟨hne, hkey⟩ := h _ List.mem_cons_self
      have hname : name.toList ≠ [] := by simpa using hne
      obtain ⟨c, cs, hcs⟩ := List.exists_cons_of_ne_nil hname
      have hc : isKeyChar c := hkey c (by simp [hcs])
      have htake : (name.toList ++ tokens.flatMap Token.chars).takeWhile isKeyChar =
          name.toList ++ (tokens.flatMap Token.chars).takeWhile isKeyChar :=
        List.takeWhile_append_of_pos hkey
      have hdrop : (name.toList ++ tokens.flatMap Token.chars).dropWhile isKeyChar =
          (tokens.flatMap Token.chars).dropWhile isKeyChar :=
        List.dropWhile_append_of_pos hkey
      rw [takeWhile_chars, List.append_nil] at htake
      rw [dropWhile_chars] at hdrop
      rw [Token.chars, List.cons_append, parts_of_skipped (by decide) (bracket_eq_none (by decide))]
      rw [hcs, List.cons_append] at htake hdrop ⊢
      rw [parts_of_keyChar hc, htake, hdrop, ← hcs, String.ofList_toList]
      rfl
    | index i =>
      have hne : (toString i).toList ≠ [] := by
        rw [toList_toString]
        exact Nat.toDigits_ne_nil
      have hbracket : bracket u ('[' :: ((toString i).toList ++ [']'] ++
          tokens.flatMap Token.chars)) = some (.index i, tokens.flatMap Token.chars) := by
        refine bracket_eq_some.mpr (.inr ⟨(toString i).toList, hne, isSome_digit_toString, ?_, ?_⟩)
        · simp
        · rw [digitsValue_toString]
      have happend : Token.chars (.index i) ++ tokens.flatMap Token.chars =
          '[' :: ((toString i).toList ++ [']'] ++ tokens.flatMap Token.chars) := rfl
      rw [happend, parts_of_bracket (by decide) hbracket, ← happend, List.length_append,
        Nat.add_sub_cancel, List.take_left]
      rfl
    | wildcard =>
      have hbracket : bracket u ('[' :: ('*' :: ']' :: tokens.flatMap Token.chars)) =
          some (.wildcard, tokens.flatMap Token.chars) :=
        bracket_eq_some.mpr (.inl ⟨rfl, rfl⟩)
      have happend : Token.chars .wildcard ++ tokens.flatMap Token.chars =
          '[' :: ('*' :: ']' :: tokens.flatMap Token.chars) := rfl
      rw [happend, parts_of_bracket (by decide) hbracket, ← happend, List.length_append,
        Nat.add_sub_cancel, List.take_left]
      rfl

/-- A rendered path is read back. -/
theorem tokenize_render {tokens : List Token} (h : ∀ t ∈ tokens, t.Written) :
    tokenize u (render tokens) = tokens := by
  have htoken : ∀ t : Token, t.parts.filterMap Part.token? = [t] := by
    intro t
    cases t <;> rfl
  rw [tokenize_eq, render, String.toList_ofList, parts_dollar, parts_chars h, List.filterMap_cons]
  show (tokens.flatMap Token.parts).filterMap Part.token? = tokens
  rw [List.filterMap_flatMap]
  simp [htoken]

theorem readable_render {tokens : List Token} (h : ∀ t ∈ tokens, t.Written) :
    Readable u (render tokens) ↔ ∀ i, .index i ∈ tokens → i < 10 ^ maxDigits := by
  have hindex : ∀ i : ℕ, (Part.token (.index i) ('[' :: (toString i).toList ++ [']'])).Readable ↔
      i < 10 ^ maxDigits := by
    intro i
    rw [← Nat.length_toDigits_le_iff (by decide) (by decide), ← toList_toString]
    simp [Part.Readable]
  have htoken : ∀ t : Token, (∀ p ∈ t.parts, p.Readable) ↔
      ∀ i, .index i = t → i < 10 ^ maxDigits := by
    intro t
    cases t with
    | key name => simp [Token.parts, Part.Readable]
    | index i => simpa [Token.parts] using hindex i
    | wildcard => simp [Token.parts, Part.Readable]
  rw [Readable, render, String.toList_ofList, parts_dollar, parts_chars h]
  simp only [List.mem_cons, forall_eq_or_imp, List.mem_flatMap, forall_exists_index, and_imp]
  constructor
  · rintro ⟨-, hall⟩ i hi
    exact (htoken _).mp (fun p hp => hall p _ hi hp) i rfl
  · intro hall
    refine ⟨trivial, fun p t ht hp => ?_⟩
    exact (htoken t).mpr (fun i hi => hall i (hi ▸ ht)) p hp

theorem tokenizePath_render {tokens : List Token} (h : ∀ t ∈ tokens, t.Written) :
    tokenizePath u (render tokens) = .ok tokens ↔ ∀ i, .index i ∈ tokens → i < 10 ^ maxDigits := by
  rw [← readable_render (u := u) h, tokenizePath]
  split_ifs with hreadable
  · simp [hreadable, tokenize_render h]
  · simp [hreadable]

/-! ## Accepted mappings -/

/-- The selectors of the fields. -/
def MappingDefinition.selectors (definition : MappingDefinition) : List String :=
  definition.recordSelector.toList ++ definition.fields.map (·.source)

/-- Paths are read as they are written, and followed one after the other, in an accepted mapping:
exactly as long as their indexes are short enough for `int` and the selectors of the mapping that
start with `$` are plain. -/
theorem paths_read_as_written_iff {F : Type} (u : Unicode) {tokens₁ : List Token}
    (h : ∀ t ∈ tokens₁, t.Written) (tokens₂ : List Token) (data : JsonValue F)
    (definition : MappingDefinition) : (validateMapping definition).valid →
    ((tokenizePath u (render tokens₁) = .ok tokens₁ ∧
        JsonValue.follow (tokens₁ ++ tokens₂) [data] =
          (JsonValue.follow tokens₁ [data]).flatMap (fun v => JsonValue.follow tokens₂ [v]) ∧
        ∀ s ∈ definition.selectors, startsWith "$" s → Accounted u s) ↔
      (∀ i, .index i ∈ tokens₁ → i < 10 ^ maxDigits) ∧
        ∀ s ∈ definition.selectors, startsWith "$" s →
          ∃ cs, s.toList = '$' :: cs ∧ Plain u cs) := by
  intro _
  rw [tokenizePath_render h]
  simp only [accounted_iff, JsonValue.follow_append, true_and]

/-- A mapping with a filter in a selector. -/
def filterMapping : MappingDefinition where
  mappingVersion := "1"
  sourceFormat := .json
  recordSelector := some "$.payments[*]"
  fields := [{ source := "$.parties[?(@.role==1)].iban", target := "creditor_account.iban" }]

theorem paths_read_as_written_filter :
    (tokenizePath .ascii (render [.key "payments", .index 0]) = .ok [.key "payments", .index 0] ∧
        JsonValue.follow ([.key "payments", .index 0] ++ [.wildcard])
            [JsonValue.null (F := Empty)] =
          (JsonValue.follow [.key "payments", .index 0] [.null]).flatMap
            (fun v => JsonValue.follow [.wildcard] [v]) ∧
        ∀ s ∈ filterMapping.selectors, startsWith "$" s → Accounted .ascii s) ↔
      (∀ i, .index i ∈ [Token.key "payments", .index 0] → i < 10 ^ maxDigits) ∧
        ∀ s ∈ filterMapping.selectors, startsWith "$" s →
          ∃ cs, s.toList = '$' :: cs ∧ Plain .ascii cs :=
  paths_read_as_written_iff .ascii (by simp [Token.Written]; decide) [.wildcard] .null
    filterMapping (by decide)

/-- The mapping is accepted, and the filter is read as member names. -/
theorem filter_not_accounted :
    (validateMapping filterMapping).valid = true ∧
      "$.parties[?(@.role==1)].iban" ∈ filterMapping.selectors ∧
      tokenize .ascii "$.parties[?(@.role==1)].iban" =
        [.key "parties", .key "role", .key "1", .key "iban"] ∧
      ¬ Accounted .ascii "$.parties[?(@.role==1)].iban" := by
  refine ⟨by decide, by simp [filterMapping, MappingDefinition.selectors], by decide +kernel, ?_⟩
  rintro ⟨cs, hcs, -, hskips⟩
  obtain rfl : ".parties[?(@.role==1)].iban".toList = cs := (List.cons.inj hcs).2
  exact absurd (hskips '[' (by decide +kernel)) (by decide)

end PaymentOps.Mapping
