import ModuleMock.Proofs.Literal.Closed

/-!
# The value of a string literal

What the body of a string or template stands for (`cook`), as UTF-16 units, and which bodies may stand between given
marks (`isBody`). Writing a body between single quotes keeps both: the result is a body for single quotes
(`isBody_requoteBody`) with the same value (`cook_requoteBody`), and so a literal with the same value (`requote_value`).

The rewriting steps over an escape two characters at a time and goes on inside a longer one. This does no harm since the
characters that continue an escape are left as they are (`takeWhile_requoteBody`, `drop_requoteBody`).
-/

namespace ModuleMock.Literal

open Script

/-! ## Escapes -/

/-- The UTF-16 units of a code point. -/
def utf16 (n : Nat) : List UInt16 :=
  if n < 0x10000 then [UInt16.ofNat n]
  else [UInt16.ofNat (0xD800 + (n - 0x10000) / 0x400), UInt16.ofNat (0xDC00 + (n - 0x10000) % 0x400)]

def digitValue (c : Char) : Nat :=
  if isDigit c then c.toNat - '0'.toNat else if 'a' ≤ c then c.toNat - 'a'.toNat + 10 else c.toNat - 'A'.toNat + 10

def digitsValue (base : Nat) (digits : List Char) : Nat := digits.foldl (fun n d => base * n + digitValue d) 0

/-- Characters that an escape may go on with: digits, and the braces around a code point. -/
def isEscapeTail (c : Char) : Bool := isHexDigit c || c == '{' || c == '}'

/-- Two hexadecimal digits after `x`: the units they stand for, and their number. -/
def hexEscape? : List Char → Option (List UInt16 × Nat)
  | a :: b :: _ => if isHexDigit a && isHexDigit b then some ([UInt16.ofNat (digitsValue 16 [a, b])], 2) else none
  | _ => none

/-- Four hexadecimal digits after `u`, or a code point in braces. -/
def unicodeEscape? : List Char → Option (List UInt16 × Nat)
  | '{' :: cs =>
    let digits := cs.takeWhile isHexDigit
    if digits ≠ [] ∧ cs[digits.length]? = some '}' ∧ digitsValue 16 digits ≤ 0x10FFFF then
      some (utf16 (digitsValue 16 digits), digits.length + 2)
    else none
  | a :: b :: c :: d :: _ =>
    if [a, b, c, d].all isHexDigit then some ([UInt16.ofNat (digitsValue 16 [a, b, c, d])], 4) else none
  | _ => none

/-- Up to three octal digits with a value below 256, of which the first is given. -/
def octalEscape (c : Char) (cs : List Char) : List UInt16 × Nat :=
  let more := (cs.take (if c ≤ '3' then 2 else 1)).takeWhile isOctalDigit
  ([UInt16.ofNat (digitsValue 8 (c :: more))], more.length)

/-- Letters that stand for control characters. -/
def controlEscapes : List (Char × UInt16) := [('b', 8), ('t', 9), ('n', 10), ('v', 11), ('f', 12), ('r', 13)]

/-- The escape whose first character after the backslash is given: the units it stands for, and how many more
characters belong to it. The end of a line stands for nothing, and what has no meaning of its own for itself. -/
def escape? (c : Char) (rest : List Char) : Option (List UInt16 × Nat) :=
  let tail := rest.takeWhile isEscapeTail
  if c = 'x' then hexEscape? tail
  else if c = 'u' then unicodeEscape? tail
  else if isOctalDigit c then some (octalEscape c tail)
  else if c = '\r' then some ([], if rest.head? = some '\n' then 1 else 0)
  else if isLineEnd c then some ([], 0)
  else some (((controlEscapes.lookup c).map ([·])).getD (utf16 c.toNat), 0)

/-! ## Bodies -/

/-- The units that a body stands for. A malformed escape stands for its characters without the backslash. -/
def cook : List Char → List UInt16
  | [] => []
  | '\\' :: c :: cs =>
    match escape? c cs with
    | some (units, n) => units ++ cook (cs.drop n)
    | none => utf16 c.toNat ++ cook cs
  | c :: cs => utf16 c.toNat ++ cook cs
termination_by cs => cs.length
decreasing_by all_goals simp; try omega

example : cook "\\x41\\u0042\\103\\0\\8\\q".toList = "ABC\x008q".toList.flatMap (utf16 ·.toNat) := by decide +kernel

/-- May an escape that begins with the given character stand between the marks? Templates have no octal escapes. -/
def allowsEscape (quote c : Char) (rest : List Char) : Bool :=
  quote != '`' || !isDigit c || (c == '0' && !rest.head?.any isDigit)

/-- Does a character stand for itself between the marks? Only templates go over several lines, and a brace after a
dollar sign would open a substitution there. -/
def allowsPlain (quote c : Char) (rest : List Char) : Bool :=
  c != quote && c != '\\' &&
    if quote = '`' then !(c == '$' && rest.head? == some '{') else c != '\n' && c != '\r'

/-- The bodies of valid literals: strings in single or double quotes, and templates without substitutions. -/
def isBody (quote : Char) : List Char → Bool
  | [] => true
  | '\\' :: c :: cs =>
    match escape? c cs with
    | some (_, n) => allowsEscape quote c cs && isBody quote (cs.drop n)
    | none => false
  | c :: cs => allowsPlain quote c cs && isBody quote cs
termination_by cs => cs.length
decreasing_by all_goals simp; try omega

/-- The value of the literal with the given body between the given marks, if it is valid. Carriage returns are left out
of account: a template reads them as line feeds. -/
def literalValue? (quote : Char) (body : List Char) : Option (List UInt16) :=
  if isBody quote body then some (cook body) else none

/-- The text up to the first mark that is not escaped, and what follows the mark; no line may end before it. -/
def untilMark (quote : Char) : List Char → Option (List Char × List Char)
  | [] => none
  | '\\' :: '\r' :: '\n' :: cs => (untilMark quote cs).map fun p => ('\\' :: '\r' :: '\n' :: p.1, p.2)
  | '\\' :: c :: cs => (untilMark quote cs).map fun p => ('\\' :: c :: p.1, p.2)
  | c :: cs =>
    if c = quote then some ([], cs)
    else if c = '\n' ∨ c = '\r' then none
    else (untilMark quote cs).map fun p => (c :: p.1, p.2)

/-- The value of a text that is one string literal, from mark to mark. -/
def quotedValue? : List Char → Option (List UInt16)
  | [] => none
  | quote :: cs =>
    if quote = '"' ∨ quote = '\'' then
      (untilMark quote cs).bind fun p => if p.2 = [] then literalValue? quote p.1 else none
    else none

/-- A backslash always escapes. -/
theorem ne_slash_of_allowsPlain {quote c : Char} {rest : List Char} (h : allowsPlain quote c rest = true) : c ≠ '\\' := by
  rintro rfl
  simp [allowsPlain] at h

/-! ## What an escape depends on -/

theorem ne_of_isEscapeTail {c d : Char} (hc : isEscapeTail c = true) (hd : isEscapeTail d = false) : c ≠ d := by
  rintro rfl
  rw [hd] at hc
  cases hc

theorem length_hexEscape? {tail : List Char} {units : List UInt16} {n : Nat} (h : hexEscape? tail = some (units, n)) :
    n ≤ tail.length := by
  unfold hexEscape? at h
  split at h
  · split at h
    · cases h
      simp
    · cases h
  · cases h

theorem length_unicodeEscape? {tail : List Char} {units : List UInt16} {n : Nat}
    (h : unicodeEscape? tail = some (units, n)) : n ≤ tail.length := by
  unfold unicodeEscape? at h
  split at h
  · rename_i cs
    dsimp only at h
    split at h
    · rename_i hclosed
      cases h
      obtain ⟨hlt, -⟩ := List.getElem?_eq_some_iff.1 hclosed.2.1
      simp only [List.length_cons]
      omega
    · cases h
  · split at h
    · cases h
      simp
    · cases h
  · cases h

theorem length_octalEscape (c : Char) (tail : List Char) : (octalEscape c tail).2 ≤ tail.length :=
  ((List.takeWhile_prefix _).length_le).trans (List.length_take_le' _ _)

/-- The characters of an escape are its first one and some that continue it. -/
theorem length_escape? {c : Char} {rest : List Char} {units : List UInt16} {n : Nat} (hc : c ≠ '\r')
    (h : escape? c rest = some (units, n)) : n ≤ (rest.takeWhile isEscapeTail).length := by
  unfold escape? at h
  dsimp only at h
  split at h
  · exact length_hexEscape? h
  · split at h
    · exact length_unicodeEscape? h
    · split at h
      · have hn := length_octalEscape c (rest.takeWhile isEscapeTail)
        rwa [Option.some.inj h] at hn
      · split at h <;> cases h <;> exact Nat.zero_le _

/-- A carriage return and a line feed after it are one end of a line. -/
theorem escape?_return (cs : List Char) : escape? '\r' cs = some ([], if cs.head? = some '\n' then 1 else 0) := rfl

theorem escape?_congr {c : Char} {rest rest' : List Char} (hc : c ≠ '\r')
    (h : rest.takeWhile isEscapeTail = rest'.takeWhile isEscapeTail) : escape? c rest = escape? c rest' := by
  unfold escape?
  rw [h, if_neg hc, if_neg hc]

/-- A rewriting that leaves the characters as they are that continue an escape can be made after them. -/
theorem drop_of_tail {f : List Char → List Char} (hf : ∀ {c : Char}, isEscapeTail c = true → ∀ cs, f (c :: cs) = c :: f cs) :
    ∀ (n : Nat) (cs : List Char), n ≤ (cs.takeWhile isEscapeTail).length → (f cs).drop n = f (cs.drop n)
  | 0, _, _ => rfl
  | n + 1, [], h => by simp at h
  | n + 1, c :: cs, h => by
    cases hc : isEscapeTail c with
    | false => simp [hc] at h
    | true =>
      rw [List.takeWhile_cons_of_pos hc, List.length_cons] at h
      rw [hf hc, List.drop_succ_cons, List.drop_succ_cons]
      exact drop_of_tail hf n cs (by omega)

/-! ## Rewriting -/

section Requote

variable {quote : Char}

theorem isEscapeTail_of_isQuote (hq : IsQuote quote) : isEscapeTail quote = false := by
  rcases hq with rfl | rfl | rfl <;> decide

theorem requoteBody_cons_of_isEscapeTail {c : Char} (hc : isEscapeTail c = true) (cs : List Char) :
    requoteBody quote (c :: cs) = c :: requoteBody quote cs :=
  requoteBody.eq_6 quote c cs (fun _ _ h _ => ne_of_isEscapeTail hc (by decide) h) (ne_of_isEscapeTail hc (by decide))
    (ne_of_isEscapeTail hc (by decide)) (ne_of_isEscapeTail hc (by decide))

/-- The characters that continue an escape are left as they are, and nothing is put after them that would. -/
theorem takeWhile_requoteBody (hq : IsQuote quote) (cs : List Char) :
    (requoteBody quote cs).takeWhile isEscapeTail = cs.takeWhile isEscapeTail := by
  fun_induction requoteBody quote cs with
  | case1 => rfl
  | case2 c cs ih =>
    split
    · rename_i hc
      have hquote : isEscapeTail c = false := by rw [hc.1, isEscapeTail_of_isQuote hq]
      rw [List.singleton_append, List.takeWhile_cons_of_neg (by simp [hquote])]
      rfl
    · rfl
  | case3 cs ih => rfl
  | case4 cs ih => rfl
  | case5 cs ih => rfl
  | case6 c cs _ _ _ _ ih => rw [List.takeWhile_cons, List.takeWhile_cons, ih]

theorem drop_requoteBody (n : Nat) (cs : List Char) (h : n ≤ (cs.takeWhile isEscapeTail).length) :
    (requoteBody quote cs).drop n = requoteBody quote (cs.drop n) :=
  drop_of_tail requoteBody_cons_of_isEscapeTail n cs h

/-- Quotation marks have no meaning of their own after a backslash. -/
theorem escape?_of_isQuote (hq : IsQuote quote) (rest : List Char) :
    escape? quote rest = some (utf16 quote.toNat, 0) := by
  rcases hq with rfl | rfl | rfl <;> rfl

theorem escape?_requoteBody (hq : IsQuote quote) {c : Char} (hc : c ≠ '\r') (cs : List Char) :
    escape? c (requoteBody quote cs) = escape? c cs := escape?_congr hc (takeWhile_requoteBody hq cs)

theorem cook_cons {c : Char} {cs : List Char} (h : ∀ d ds, c = '\\' → cs = d :: ds → False) :
    cook (c :: cs) = utf16 c.toNat ++ cook cs := by
  rw [cook]
  exact h

theorem cook_cons_of_ne {c : Char} (hc : c ≠ '\\') (cs : List Char) : cook (c :: cs) = utf16 c.toNat ++ cook cs :=
  cook_cons fun _ _ h _ => hc h

theorem cook_escape {c : Char} {cs : List Char} {units : List UInt16} {n : Nat} (h : escape? c cs = some (units, n)) :
    cook ('\\' :: c :: cs) = units ++ cook (cs.drop n) := by
  rw [cook, h]

/-- A character that stands for itself still does so where it is written. -/
theorem cook_requoteBody_plain {c : Char} (hc : c ≠ '\\') (cs : List Char) :
    cook (requoteBody quote (c :: cs)) = utf16 c.toNat ++ cook (requoteBody quote cs) := by
  by_cases hmark : c = '\''
  · subst hmark
    rw [requoteBody, cook_escape (escape?_of_isQuote (.inr (.inl rfl)) _), List.drop_zero]
  by_cases hfeed : c = '\n'
  · subst hfeed
    rw [requoteBody, cook_escape rfl, List.drop_zero]
    rfl
  by_cases hreturn : c = '\r'
  · subst hreturn
    rw [requoteBody, cook_escape rfl, List.drop_zero]
    rfl
  rw [requoteBody.eq_6 quote c cs (fun _ _ h _ => hc h) hmark hfeed hreturn, cook_cons_of_ne hc]

/-- An escape stands for the same where it is written. -/
theorem cook_requoteBody_escape (hq : IsQuote quote) {c : Char} (hc : c ≠ '\r') {cs : List Char} {units : List UInt16}
    {n : Nat} (h : escape? c cs = some (units, n)) :
    cook (requoteBody quote ('\\' :: c :: cs)) = units ++ cook (requoteBody quote (cs.drop n)) := by
  rw [requoteBody]
  split
  · rename_i hquote
    obtain ⟨rfl, hne⟩ := hquote
    rw [escape?_of_isQuote hq] at h
    obtain ⟨rfl, rfl⟩ := Prod.mk.inj (Option.some.inj h)
    rw [List.singleton_append, cook_cons_of_ne (by rcases hq with rfl | rfl | rfl <;> decide)]
    rfl
  · have h' : escape? c (requoteBody quote cs) = some (units, n) := by rw [escape?_requoteBody hq hc, h]
    rw [List.cons_append, List.cons_append, List.nil_append, cook_escape h',
      drop_requoteBody n cs (length_escape? hc h)]

/-- Writing a body between single quotes keeps what it stands for. -/
theorem cook_requoteBody (hq : IsQuote quote) (cs : List Char) (hcr : '\r' ∉ cs) :
    cook (requoteBody quote cs) = cook cs := by
  -- along the escapes of the body, which may be longer than the steps of the rewriting
  fun_induction cook cs with
  | case1 => rw [requoteBody, cook]
  | case2 c cs units n hesc ih =>
    have hc : c ≠ '\r' := fun e => hcr (by simp [e])
    have hrest : '\r' ∉ cs := fun h => hcr (by simp [h])
    rw [cook_requoteBody_escape hq hc hesc, ih fun h => hrest (List.mem_of_mem_drop h)]
  | case3 c cs hesc ih =>
    have hc : c ≠ '\r' := fun e => hcr (by simp [e])
    have ih := ih fun h => hcr (by simp [h])
    rw [requoteBody, if_neg]
    · have hesc' : escape? c (requoteBody quote cs) = none := by rw [escape?_requoteBody hq hc, hesc]
      rw [List.cons_append, List.cons_append, List.nil_append, cook, hesc', ih]
    · rintro ⟨rfl, -⟩
      rw [escape?_of_isQuote hq] at hesc
      cases hesc
  | case4 c cs hplain ih =>
    by_cases hslash : c = '\\'
    · -- a backslash at the very end
      subst hslash
      cases cs with
      | nil => rw [show requoteBody quote ['\\'] = ['\\'] from rfl, cook_cons (by simp)]
      | cons d ds => exact (hplain d ds rfl rfl).elim
    · rw [cook_requoteBody_plain hslash, ih fun h => hcr (List.mem_cons_of_mem _ h)]

theorem head?_requoteBody (hq : IsQuote quote) (cs : List Char) : (requoteBody quote cs).head? ≠ some '\n' := by
  fun_induction requoteBody quote cs with
  | case2 c cs _ =>
    split
    · rename_i hc
      rw [hc.1]
      rcases hq with rfl | rfl | rfl <;> simp
    · simp
  | _ => simp_all

/-- What is written between single quotes is a body there. -/
theorem isBody_requoteBody (hq : IsQuote quote) (cs : List Char) (h : isBody quote cs = true) :
    isBody '\'' (requoteBody quote cs) = true := by
  fun_induction isBody quote cs with
  | case1 => rw [requoteBody, isBody]
  | case2 c cs units n hesc ih =>
    have ih := ih (Bool.and_eq_true_iff.1 h).2
    rw [requoteBody]
    split
    · rename_i hquote
      obtain ⟨rfl, hne⟩ := hquote
      rw [escape?_of_isQuote hq] at hesc
      obtain ⟨rfl, rfl⟩ := Prod.mk.inj (Option.some.inj hesc)
      rw [List.singleton_append, isBody]
      · rw [List.drop_zero] at ih
        rw [ih, Bool.and_true]
        rcases hq with rfl | rfl | rfl
        · rfl
        · exact absurd rfl hne
        · rfl
      · rintro _ _ rfl
        rcases hq with h | h | h <;> exact absurd h (by decide)
    · rw [List.cons_append, List.cons_append, List.nil_append, isBody]
      by_cases hc : c = '\r'
      · -- a line feed that belongs to the escape is an escape of its own where it is written
        subst hc
        rw [escape?_return, if_neg (head?_requoteBody hq cs)]
        show isBody '\'' (requoteBody quote cs) = true
        rw [escape?_return] at hesc
        obtain ⟨-, rfl⟩ := Prod.mk.inj (Option.some.inj hesc)
        split at ih
        · rename_i hfeed
          obtain ⟨ds, rfl⟩ := List.head?_eq_some_iff.1 hfeed
          rw [requoteBody, isBody]
          exact ih
        · exact ih
      · have hesc' : escape? c (requoteBody quote cs) = some (units, n) := by rw [escape?_requoteBody hq hc, hesc]
        rw [hesc']
        dsimp only
        rw [drop_requoteBody n cs (length_escape? hc hesc), ih]
        rfl
  | case3 c cs hesc => cases h
  | case4 c cs hplain ih =>
    obtain ⟨hallows, h⟩ := Bool.and_eq_true_iff.1 h
    have ih := ih h
    by_cases hmark : c = '\''
    · subst hmark
      rw [requoteBody, isBody, escape?_of_isQuote (.inr (.inl rfl))]
      exact ih
    by_cases hfeed : c = '\n'
    · subst hfeed
      rw [requoteBody, isBody]
      exact ih
    by_cases hreturn : c = '\r'
    · subst hreturn
      rw [requoteBody, isBody]
      exact ih
    have hslash := ne_slash_of_allowsPlain hallows
    rw [requoteBody.eq_6 quote c cs hplain hmark hfeed hreturn, isBody, ih]
    · simp [allowsPlain, hmark, hfeed, hreturn, hslash]
    · exact fun _ _ h => absurd h hslash

/-- No backslash of a valid body is left without what it escapes. -/
theorem body_of_isBody (cs : List Char) (h : isBody quote cs = true) : Body (· ≠ '\\') cs := by
  fun_induction isBody quote cs with
  | case1 => exact .nil
  | case2 c cs units n hesc ih =>
    have ih := ih (Bool.and_eq_true_iff.1 h).2
    by_cases hc : c = '\r'
    · subst hc
      rw [escape?_return] at hesc
      obtain ⟨-, rfl⟩ := Prod.mk.inj (Option.some.inj hesc)
      split at ih
      · rename_i hfeed
        obtain ⟨ds, rfl⟩ := List.head?_eq_some_iff.1 hfeed
        exact .continuation ih
      · exact .escape ih
    have htail : ∀ d ∈ cs.take n, d ≠ '\\' := by
      intro d hd
      have hstart : cs.take n <+: cs.takeWhile isEscapeTail := by
        refine List.prefix_of_prefix_length_le (List.take_prefix n cs) (List.takeWhile_prefix _) ?_
        exact (List.length_take_le n cs).trans (length_escape? hc hesc)
      exact ne_of_isEscapeTail (List.mem_takeWhile_imp (hstart.subset hd)) (by decide)
    refine .escape ?_
    rw [← List.take_append_drop n cs]
    exact (Body.of_forall htail).append ih
  | case3 c cs hesc => cases h
  | case4 c cs hplain ih =>
    obtain ⟨hallows, h⟩ := Bool.and_eq_true_iff.1 h
    exact .plain (ne_slash_of_allowsPlain hallows) (ih h)

end Requote

/-! ## Whole literals -/

theorem untilMark_escape {quote c : Char} {cs : List Char} (hc : c ≠ '\r' ∨ cs.head? ≠ some '\n') :
    untilMark quote ('\\' :: c :: cs) = (untilMark quote cs).map fun p => ('\\' :: c :: p.1, p.2) := by
  rw [untilMark]
  rintro ds rfl rfl
  rcases hc with hc | hc <;> exact hc rfl

/-- A body for the given marks ends at the first mark that is not escaped. -/
theorem untilMark_of_body {quote : Char} (hq : quote = '"' ∨ quote = '\'') {cs : List Char}
    (h : Body (IsStringChar quote) cs) (rest : List Char) :
    untilMark quote (cs ++ quote :: rest) = some (cs, rest) := by
  have hslash : quote ≠ '\\' := by rcases hq with rfl | rfl <;> decide
  induction h with
  | nil =>
    rw [List.nil_append, untilMark]
    · simp
    · exact fun _ e => absurd e hslash
    · exact fun _ _ e => absurd e hslash
  | @plain c cs hc _ ih =>
    rw [List.cons_append, untilMark]
    · simp [hc.1, hc.2.2.1, hc.2.2.2, ih]
    · exact fun _ e => absurd e hc.2.1
    · exact fun _ _ e => absurd e hc.2.1
  | @escape c cs h ih =>
    rw [List.cons_append, List.cons_append, untilMark_escape, ih]
    · rfl
    · -- a line feed is not in a body by itself
      refine .inr ?_
      cases h with
      | nil => rcases hq with rfl | rfl <;> simp
      | plain hc _ => simpa using hc.2.2.1
      | escape => simp
      | continuation => simp
  | continuation _ ih =>
    rw [List.cons_append, List.cons_append, List.cons_append, untilMark, ih]
    rfl

theorem quotedValue?_of_body {quote : Char} (hq : quote = '"' ∨ quote = '\'') {cs : List Char}
    (h : Body (IsStringChar quote) cs) : quotedValue? (quote :: (cs ++ [quote])) = literalValue? quote cs := by
  rw [quotedValue?, if_pos hq, untilMark_of_body hq h]
  rfl

/-- The value of what is written between single quotes. -/
theorem quotedValue?_requote {quote : Char} (hq : IsQuote quote) {body : String} (h : isBody quote body.toList = true) :
    quotedValue? (requote quote body).toList = some (cook (requoteBody quote body.toList)) := by
  have hbody : Body (IsStringChar '\'') (requoteBody quote body.toList) := body_requoteBody hq (body_of_isBody _ h)
  rw [requote, String.toList_ofList, List.cons_append, quotedValue?_of_body (.inr rfl) hbody, literalValue?,
    isBody_requoteBody hq _ h]
  rfl

/-- **Writing a literal between single quotes keeps its value.** If a body without carriage returns is valid between its
marks, then what is written is a valid literal in single quotes with the same value, whose closing mark is its first
mark that is not escaped, with no end of a line before it. -/
theorem requote_value {quote : Char} (hq : IsQuote quote) {body : String} (hcr : '\r' ∉ body.toList)
    {units : List UInt16} (h : literalValue? quote body.toList = some units) :
    ∃ inner, (requote quote body).toList = '\'' :: (inner ++ ['\'']) ∧
      untilMark '\'' (inner ++ ['\'']) = some (inner, []) ∧ literalValue? '\'' inner = some units := by
  unfold literalValue? at h
  split at h
  · rename_i hbody
    obtain rfl := Option.some.inj h
    refine ⟨requoteBody quote body.toList, by simp [requote], ?_, ?_⟩
    · exact untilMark_of_body (.inr rfl) (body_requoteBody hq (body_of_isBody _ hbody)) []
    · rw [literalValue?, isBody_requoteBody hq _ hbody, cook_requoteBody hq _ hcr]
      rfl
  · cases h

/-- A template with quotation marks of every kind, escapes of every length and a line break. -/
theorem requote_value_crowded : ∃ inner,
    (requote '`' "it's \\` \\\\\" \\u\x7b1F600\x7d\\x41\\0\\\n$\n").toList = '\'' :: (inner ++ ['\'']) ∧
      untilMark '\'' (inner ++ ['\'']) = some (inner, []) ∧
      literalValue? '\'' inner =
        some ("it's ` \\\" ".toList.flatMap (utf16 ·.toNat) ++ [0xD83D, 0xDE00, 65, 0, 36, 10]) :=
  requote_value (.inr (.inr rfl)) (by decide) (by decide +kernel)

end ModuleMock.Literal
