import PaymentOps.Lib.Text

/-!
# Paths of URLs

Percent-encoding, and the dot segments that a URL parser takes out of a path.

* `encodeURIComponent` encodes a segment, `decodeSegment` reads it back (`decode_encode`);
* `resolve` takes the dot segments out of a list of segments, `requestPath` out of a text;
* `urlDots_encode` says that encoding makes no dot segment and hides none.
-/

namespace Url

/-! ## Percent-encoding -/

/-- The characters that `encodeURIComponent` keeps. -/
def unescaped (c : Char) : Bool := c.isAlphanum || "-_.!~*'()".toList.contains c

/-- A hexadecimal digit. -/
def hexUpper (n : ℕ) : Char := Char.ofNat (if n < 10 then 48 + n else 55 + n)

/-- A byte as `%XX`. -/
def percentByte (b : UInt8) : List Char :=
  ['%', hexUpper (b.toNat / 16), hexUpper (b.toNat % 16)]

/-- A character as it is, or the bytes of its UTF-8 form. -/
def encodeChar (c : Char) : List Char :=
  if unescaped c then [c] else (String.utf8EncodeChar c).flatMap percentByte

/-- The characters of a text, encoded. -/
def encodeChars (l : List Char) : List Char := l.flatMap encodeChar

/-- `encodeURIComponent(s)`, for a text without lone surrogates. -/
def encodeURIComponent (s : String) : String := String.ofList (encodeChars s.toList)

/-- The value of a hexadecimal digit. -/
def hexValue (c : Char) : Option ℕ :=
  if c.isDigit then some (c.toNat - 48)
  else if 'A' ≤ c ∧ c ≤ 'F' then some (c.toNat - 55)
  else if 'a' ≤ c ∧ c ≤ 'f' then some (c.toNat - 87)
  else none

/-- The bytes of a percent-encoded text. -/
def percentDecode : List Char → List UInt8
  | [] => []
  | c :: rest =>
    match rest with
    | a :: b :: rest' =>
      match c == '%', hexValue a, hexValue b with
      | true, some x, some y => (16 * x + y).toUInt8 :: percentDecode rest'
      | _, _, _ => String.utf8EncodeChar c ++ percentDecode (a :: b :: rest')
    | rest => String.utf8EncodeChar c ++ percentDecode rest

/-- A percent-encoded segment as a server reads it. -/
def decodeSegment (s : String) : String :=
  match (percentDecode s.toList).toByteArray.utf8Decode? with
  | some cs => String.ofList cs.toList
  | none => s

theorem hexValue_hexUpper : ∀ n < 16, hexValue (hexUpper n) = some n := by decide

theorem percentDecode_percentByte (b : UInt8) (rest : List Char) :
    percentDecode (percentByte b ++ rest) = b :: percentDecode rest := by
  have hhigh : b.toNat / 16 < 16 := by
    have := b.toNat_lt
    omega
  have hlow : b.toNat % 16 < 16 := Nat.mod_lt _ (by omega)
  have hb : (16 * (b.toNat / 16) + b.toNat % 16).toUInt8 = b := by
    rw [Nat.div_add_mod]
    exact UInt8.ofNat_toNat
  rw [percentByte, List.cons_append, List.cons_append, List.cons_append, List.nil_append,
    percentDecode, hexValue_hexUpper _ hhigh, hexValue_hexUpper _ hlow]
  simp only [beq_self_eq_true, hb]

theorem percentDecode_cons {c : Char} (h : c ≠ '%') (rest : List Char) :
    percentDecode (c :: rest) = String.utf8EncodeChar c ++ percentDecode rest := by
  rw [percentDecode.eq_def]
  dsimp only
  split
  · split
    · rename_i hc _ _
      exact absurd (beq_iff_eq.mp hc) h
    · rfl
  · rfl

theorem percentDecode_bytes (bytes : List UInt8) (rest : List Char) :
    percentDecode (bytes.flatMap percentByte ++ rest) = bytes ++ percentDecode rest := by
  induction bytes with
  | nil => rfl
  | cons b bytes ih =>
    rw [List.flatMap_cons, List.append_assoc, percentDecode_percentByte, ih, List.cons_append]

theorem ne_percent_of_unescaped {c : Char} (h : unescaped c) : c ≠ '%' := by
  rintro rfl
  exact absurd h (by decide)

theorem percentDecode_encodeChars (l : List Char) :
    percentDecode (encodeChars l) = l.flatMap String.utf8EncodeChar := by
  induction l with
  | nil => rfl
  | cons c l ih =>
    rw [encodeChars, List.flatMap_cons, List.flatMap_cons, encodeChar]
    split_ifs with hc
    · rw [List.singleton_append, percentDecode_cons (ne_percent_of_unescaped hc), ← ih]
      rfl
    · rw [percentDecode_bytes, ← ih]
      rfl

/-- An encoded segment is read back. -/
theorem decode_encode (s : String) : decodeSegment (encodeURIComponent s) = s := by
  have hdecode : (percentDecode (encodeURIComponent s).toList).toByteArray.utf8Decode? =
      some s.toList.toArray := by
    rw [encodeURIComponent, String.toList_ofList, percentDecode_encodeChars]
    exact List.utf8Decode?_utf8Encode
  rw [decodeSegment, hdecode]
  exact String.ofList_toList

theorem encodeURIComponent_injective : Function.Injective encodeURIComponent :=
  Function.LeftInverse.injective decode_encode

/-! ## Characters of an encoded text -/

/-- What an encoded text consists of. -/
theorem mem_encodeChars {d : Char} {l : List Char} (h : d ∈ encodeChars l) :
    unescaped d ∨ d = '%' := by
  obtain ⟨c, -, hd⟩ := List.mem_flatMap.mp h
  rw [encodeChar] at hd
  split_ifs at hd with hc
  · obtain rfl := List.mem_singleton.mp hd
    exact .inl hc
  · obtain ⟨b, -, hd⟩ := List.mem_flatMap.mp hd
    have hhex : ∀ n < 16, unescaped (hexUpper n) := by decide
    have hb := b.toNat_lt
    rcases List.mem_cons.mp hd with rfl | hd
    · exact .inr rfl
    · rcases List.mem_pair.mp hd with rfl | rfl
      · exact .inl (hhex _ (by omega))
      · exact .inl (hhex _ (by omega))

/-- The first byte of a character tells ASCII characters. -/
theorem toNat_of_utf8EncodeChar {c : Char} {b : UInt8} {bytes : List UInt8}
    (h : String.utf8EncodeChar c = b :: bytes) (hb : b.toNat < 128) : c.toNat = b.toNat := by
  have hval : c.val.toNat = c.toNat := rfl
  unfold String.utf8EncodeChar at h
  dsimp only at h
  rw [hval] at h
  split_ifs at h <;> cases h
  · rw [UInt8.toNat_ofNat']
    omega
  · rw [UInt8.toNat_ofNat'] at hb
    omega
  · rw [UInt8.toNat_ofNat'] at hb
    omega
  · rw [UInt8.toNat_ofNat'] at hb
    omega

/-! ## Dot segments -/

/-- What a segment says to a resolver: nothing, stay, or go up. -/
inductive Dots where
  | none | single | double
  deriving DecidableEq, Repr

/-- `.` and `..` -/
def exactDots (s : String) : Dots :=
  if s = "." then .single else if s = ".." then .double else .none

/-- The segments that a URL parser takes for `.` and `..`. -/
def urlDots (s : String) : Dots :=
  let t := String.ofList (s.toList.map Char.toLower)
  if t ∈ [".", "%2e"] then .single
  else if t ∈ ["..", ".%2e", "%2e.", "%2e%2e"] then .double
  else .none

/-- The texts, in lower case, that the parser takes for dot segments. -/
def lowered (l : List Char) : List Char := (encodeChars l).map Char.toLower

theorem toLower_eq_symbol {c d : Char} (hd : d ∈ ['%', '.', '2']) (h : c.toLower = d) : c = d := by
  by_cases hc : c.toNat < 128
  · have hsymbol : c.toLower ∈ ['%', '.', '2'] → c.toLower = c :=
      Text.of_ascii (P := fun c => c.toLower ∈ ['%', '.', '2'] → c.toLower = c) (by decide) hc
    rw [← hsymbol (h ▸ hd), h]
  · rw [← h, Text.toLower_of_not_ascii (not_lt.mp hc)]

/-- Encoding never writes a dot as `%2e`. -/
theorem lowered_ne (l rest : List Char) : lowered l ≠ '%' :: '2' :: 'e' :: rest := by
  intro h
  cases l with
  | nil => cases h
  | cons c l =>
    rw [lowered, encodeChars, List.flatMap_cons, encodeChar] at h
    split_ifs at h with hc
    · rw [List.singleton_append, List.map_cons] at h
      exact ne_percent_of_unescaped hc (toLower_eq_symbol (by decide) (List.cons.inj h).1)
    · obtain ⟨b, bytes, hbytes⟩ :=
        List.exists_cons_of_ne_nil (String.utf8EncodeChar_ne_nil (c := c))
      rw [hbytes, List.flatMap_cons, percentByte] at h
      simp only [List.cons_append, List.map_cons, List.cons.injEq] at h
      obtain ⟨-, hhigh, hlow, -⟩ := h
      have hdigits : ∀ m < 16, ∀ n < 16, (hexUpper m).toLower = '2' → (hexUpper n).toLower = 'e' →
          m = 2 ∧ n = 14 := by decide
      have hb := b.toNat_lt
      obtain ⟨hm, hn⟩ := hdigits _ (by omega) _ (by omega) hhigh hlow
      have hdot : c.toNat = b.toNat := toNat_of_utf8EncodeChar hbytes (by omega)
      have : c = '.' := by
        rw [← Char.ofNat_toNat c, hdot, show b.toNat = 46 by omega]
      rw [this] at hc
      exact hc (by decide)

/-- Only a dot is encoded as one. -/
theorem lowered_dot {l rest : List Char} (h : lowered l = '.' :: rest) :
    ∃ l', l = '.' :: l' ∧ lowered l' = rest := by
  cases l with
  | nil => cases h
  | cons c l =>
    rw [lowered, encodeChars, List.flatMap_cons, encodeChar] at h
    split_ifs at h with hc
    · rw [List.singleton_append, List.map_cons] at h
      obtain ⟨hdot, hrest⟩ := List.cons.inj h
      exact ⟨l, congrArg (· :: l) (toLower_eq_symbol (by decide) hdot), hrest⟩
    · obtain ⟨b, bytes, hbytes⟩ :=
        List.exists_cons_of_ne_nil (String.utf8EncodeChar_ne_nil (c := c))
      rw [hbytes, List.flatMap_cons, percentByte] at h
      simp only [List.cons_append, List.map_cons, List.cons.injEq] at h
      exact absurd h.1 (by decide)

theorem lowered_nil {l : List Char} (h : lowered l = []) : l = [] := by
  cases l with
  | nil => rfl
  | cons c l =>
    rw [lowered, encodeChars, List.flatMap_cons, List.map_append, List.append_eq_nil_iff,
      List.map_eq_nil_iff, encodeChar] at h
    split_ifs at h with hc
    · cases h.1
    · obtain ⟨b, bytes, hbytes⟩ :=
        List.exists_cons_of_ne_nil (String.utf8EncodeChar_ne_nil (c := c))
      rw [hbytes] at h
      cases h.1

/-- Encoding makes no dot segment, and hides none. -/
theorem urlDots_encode (s : String) : urlDots (encodeURIComponent s) = exactDots s := by
  by_cases hsingle : s = "."
  · subst hsingle
    decide
  · by_cases hdouble : s = ".."
    · subst hdouble
      decide
    · have hplain : ∀ t : String, String.ofList (lowered s.toList) = t →
          lowered s.toList = t.toList := by
        rintro t rfl
        exact String.toList_ofList.symm
      have hone : ¬ String.ofList (lowered s.toList) ∈ [".", "%2e"] := by
        intro h
        rcases List.mem_pair.mp h with h | h
        · obtain ⟨l, hl, hrest⟩ := lowered_dot (hplain _ h)
          rw [lowered_nil hrest] at hl
          exact hsingle (String.toList_injective hl)
        · exact lowered_ne _ _ (hplain _ h)
      have htwo : ¬ String.ofList (lowered s.toList) ∈ ["..", ".%2e", "%2e.", "%2e%2e"] := by
        intro h
        simp only [List.mem_cons, List.not_mem_nil, or_false] at h
        rcases h with h | h | h | h
        · obtain ⟨l, hl, hrest⟩ := lowered_dot (hplain _ h)
          obtain ⟨l', rfl, hrest'⟩ := lowered_dot hrest
          rw [lowered_nil hrest'] at hl
          exact hdouble (String.toList_injective hl)
        · obtain ⟨l, -, hrest⟩ := lowered_dot (hplain _ h)
          exact lowered_ne _ _ hrest
        · exact lowered_ne _ _ (hplain _ h)
        · exact lowered_ne _ _ (hplain _ h)
      rw [urlDots, encodeURIComponent, String.toList_ofList]
      rw [lowered] at hone htwo
      rw [if_neg hone, if_neg htwo, exactDots, if_neg hsingle, if_neg hdouble]

/-- The path once the dot segments are taken out.  A dot segment at the end leaves an empty one. -/
def resolveFrom (dots : String → Dots) : List String → List String → List String
  | path, [] => path
  | path, s :: rest =>
    let kept : List String :=
      match dots s with
      | .none => path ++ [s]
      | .single => path
      | .double => path.dropLast
    resolveFrom dots (if dots s ≠ .none ∧ rest = [] then kept ++ [""] else kept) rest

/-- The segments without the dot segments. -/
def resolve (dots : String → Dots) (path : List String) : List String := resolveFrom dots [] path

theorem resolveFrom_append {dots : String → Dots} {l : List String}
    (h : ∀ s ∈ l, dots s = .none) (path rest : List String) :
    resolveFrom dots path (l ++ rest) = resolveFrom dots (path ++ l) rest := by
  induction l generalizing path with
  | nil => rw [List.nil_append, List.append_nil]
  | cons s l ih =>
    have hs := h s List.mem_cons_self
    rw [List.cons_append, resolveFrom, hs]
    simp only [ne_eq, not_true_eq_false, false_and, if_false]
    rw [ih (fun s' hs' => h s' (List.mem_cons_of_mem _ hs')), List.append_assoc,
      List.singleton_append]

theorem resolve_of_none {dots : String → Dots} {path : List String}
    (h : ∀ s ∈ path, dots s = .none) : resolve dots path = path := by
  have hpath := resolveFrom_append h [] []
  rwa [List.append_nil] at hpath

/-- A path whose segments are rewritten one by one. -/
theorem resolveFrom_map {dots dots' : String → Dots} {f : String → String} (hf : f "" = "")
    {l : List String} (h : ∀ s ∈ l, dots (f s) = dots' s) (path : List String) :
    resolveFrom dots (path.map f) (l.map f) = (resolveFrom dots' path l).map f := by
  induction l generalizing path with
  | nil => rfl
  | cons s l ih =>
    have hrest : ∀ path' : List String,
        resolveFrom dots (path'.map f) (l.map f) = (resolveFrom dots' path' l).map f :=
      ih fun s' hs' => h s' (List.mem_cons_of_mem _ hs')
    rw [List.map_cons, resolveFrom, resolveFrom, h s List.mem_cons_self, ← hrest]
    congr 1
    cases dots' s <;> by_cases hl : l = [] <;> simp [hl, hf, List.map_dropLast]

/-- Segments that are encoded on their own keep their places. -/
theorem resolve_encode (path : List String) :
    resolve urlDots (path.map encodeURIComponent) =
      (resolve exactDots path).map encodeURIComponent := by
  have hnil : encodeURIComponent "" = "" := by decide
  exact resolveFrom_map hnil (fun s _ => urlDots_encode s) []

/-- The segments after those of a base.  A path outside of the base is taken whole. -/
def relativeTo (base path : List String) : List String :=
  if base <+: path then path.drop base.length else path

theorem relativeTo_append (base path : List String) : relativeTo base (base ++ path) = path := by
  rw [relativeTo, if_pos (List.prefix_append base path), List.drop_left]

theorem relativeTo_map {f : String → String} (hf : Function.Injective f)
    (base path : List String) :
    relativeTo (base.map f) (path.map f) = (relativeTo base path).map f := by
  have hiff : base.map f <+: path.map f ↔ base <+: path :=
    List.prefix_map_iff_of_injective hf
  unfold relativeTo
  rw [List.length_map]
  split_ifs with hmap h h
  · exact List.map_drop.symm
  · exact absurd (hiff.mp hmap) h
  · exact absurd (hiff.mpr h) hmap
  · rfl

/-! ## Parsing -/

/-- The character `\`. -/
def backslash : Char := Char.ofNat 92

/-- The segments of the path, from what follows the authority in a URL of HTTP.  What the parser
strips or encodes besides does not occur in encoded segments. -/
def requestPath (rest : List Char) : List String :=
  let path := (rest.takeWhile fun c => c ≠ '?' && c ≠ '#').map fun c =>
    if c = backslash then '/' else c
  resolve urlDots (Text.split '/' (String.ofList (path.drop 1)))

/-- The characters that end a segment. -/
def delimiters : List Char := ['/', '?', '#', backslash]

/-- The text of a path. -/
def pathText (segments : List String) : List Char := segments.flatMap fun s => '/' :: s.toList

theorem pathText_join {segments : List String} (h : segments ≠ []) :
    '/' :: (Text.join "/" segments).toList = pathText segments := by
  obtain ⟨s, rest, rfl⟩ := List.exists_cons_of_ne_nil h
  rw [Text.join, String.toList_intercalate]
  induction rest generalizing s with
  | nil => simp [pathText]
  | cons t rest ih =>
    rw [pathText, List.flatMap_cons, List.cons_append, ← pathText, ← ih t (by simp)]
    simp [List.intercalate]

theorem split_pathText (s : String) (segments : List String)
    (h : ∀ t ∈ s :: segments, '/' ∉ t.toList) :
    (s.toList ++ pathText segments).splitOn '/' = (s :: segments).map String.toList := by
  induction segments generalizing s with
  | nil => simpa [pathText] using List.splitOn_eq_singleton (h s List.mem_cons_self)
  | cons t segments ih =>
    have hs : s.toList.splitOn '/' = [s.toList] :=
      List.splitOn_eq_singleton (h s List.mem_cons_self)
    rw [pathText, List.flatMap_cons, List.cons_append, List.splitOn_append_cons_self, hs]
    rw [List.singleton_append, List.map_cons,
      ← ih t fun t' ht' => h t' (List.mem_cons_of_mem _ ht')]
    rfl

/-- A path whose segments have no delimiters, with or without a query after it. -/
theorem requestPath_pathText {segments : List String} (hne : segments ≠ [])
    (h : ∀ s ∈ segments, ∀ c ∈ delimiters, c ∉ s.toList) {query : List Char}
    (hquery : query = [] ∨ query.head? = some '?') :
    requestPath (pathText segments ++ query) = resolve urlDots segments := by
  have hchars : ∀ c ∈ pathText segments, c ≠ '?' ∧ c ≠ '#' ∧ c ≠ backslash := by
    intro c hc
    obtain ⟨s, hs, hc⟩ := List.mem_flatMap.mp hc
    rcases List.mem_cons.mp hc with rfl | hc
    · decide
    · refine ⟨?_, ?_, ?_⟩
      all_goals
        rintro rfl
        exact h s hs _ (by decide) hc
  have htake : (pathText segments ++ query).takeWhile (fun c => c ≠ '?' && c ≠ '#') =
      pathText segments := by
    rw [List.takeWhile_append_of_pos fun c hc => by simp [(hchars c hc).1, (hchars c hc).2.1]]
    rcases hquery with rfl | hquery
    · exact List.append_nil _
    · obtain ⟨rest, rfl⟩ := List.head?_eq_some_iff.mp hquery
      simp
  have hslashes : (pathText segments).map (fun c => if c = backslash then '/' else c) =
      pathText segments := by
    rw [List.map_congr_left fun c hc => if_neg (hchars c hc).2.2]
    exact List.map_id' _
  have hsegments : Text.split '/' (String.ofList ((pathText segments).drop 1)) = segments := by
    obtain ⟨s, rest, rfl⟩ := List.exists_cons_of_ne_nil hne
    have hsplit := split_pathText s rest fun t ht => h t ht '/' (by decide)
    have hdrop : (pathText (s :: rest)).drop 1 = s.toList ++ pathText rest := rfl
    rw [hdrop, Text.split, String.toList_ofList, hsplit, List.map_map]
    simp [Function.comp_def]
  unfold requestPath
  rw [htake, hslashes]
  exact congrArg _ hsegments

end Url
