import ModuleMock.Proofs.Literal.StringValue
import ModuleMock.Text.Utf8

/-!
# Line ends in templates

A template reads every line end as a line feed (`templateValue?`), and so does a text that is read from a file. What is
written between single quotes for a template has an escape for each carriage return that is not escaped, and takes a
carriage return and a line feed after a backslash apart. So a template with other line ends than line feeds keeps its
value exactly if each of its carriage returns is escaped and stands without a line feed (`requote_unifyLines_iff`).
-/

namespace ModuleMock.Literal

open Text

/-- The value of the template with the given body: line ends of all kinds are line feeds. -/
def templateValue? (body : List Char) : Option (List UInt16) := literalValue? '`' (unifyLines body)

/-- Each carriage return is escaped, and no line feed follows it. -/
def returnsEscaped : List Char → Bool
  | [] => true
  | '\\' :: c :: cs => !(c == '\r' && cs.head? == some '\n') && returnsEscaped cs
  | c :: cs => c != '\r' && returnsEscaped cs

/-! ## Line feeds for all line ends -/

/-- A text without the line feed at its front. -/
def dropFeed (cs : List Char) : List Char := if cs.head? = some '\n' then cs.tail else cs

theorem unifyLines_cons {c : Char} (hc : c ≠ '\r') (cs : List Char) : unifyLines (c :: cs) = c :: unifyLines cs := by
  rw [unifyLines]
  · exact fun _ h _ => hc h
  · exact hc

theorem unifyLines_return (cs : List Char) : unifyLines ('\r' :: cs) = '\n' :: unifyLines (dropFeed cs) := by
  unfold dropFeed
  split
  · rename_i h
    obtain ⟨ds, rfl⟩ := List.head?_eq_some_iff.1 h
    rw [unifyLines]
    rfl
  · rename_i h
    rw [unifyLines]
    rintro ds rfl
    exact h rfl

/-- No return is left. -/
theorem return_not_mem_unifyLines (cs : List Char) : '\r' ∉ unifyLines cs := by
  fun_induction unifyLines cs with
  | case1 => simp
  | case2 cs ih => simp [ih]
  | case3 cs _ ih => simp [ih]
  | case4 c cs _ hc ih => simp [ih, Ne.symm hc]

theorem unifyLines_cons_of_isEscapeTail {c : Char} (hc : isEscapeTail c = true) (cs : List Char) :
    unifyLines (c :: cs) = c :: unifyLines cs := unifyLines_cons (ne_of_isEscapeTail hc (by decide)) cs

theorem takeWhile_unifyLines (cs : List Char) :
    (unifyLines cs).takeWhile isEscapeTail = cs.takeWhile isEscapeTail := by
  fun_induction unifyLines cs with
  | case1 => rfl
  | case2 cs _ => rfl
  | case3 cs _ _ => rfl
  | case4 c cs _ _ ih => rw [List.takeWhile_cons, List.takeWhile_cons, ih]

theorem head?_unifyLines_digit (cs : List Char) : (unifyLines cs).head?.any Script.isDigit = cs.head?.any Script.isDigit := by
  fun_induction unifyLines cs <;> rfl

theorem head?_unifyLines_brace (cs : List Char) : ((unifyLines cs).head? == some '{') = (cs.head? == some '{') := by
  fun_induction unifyLines cs <;> rfl

theorem unifyLines_escape {c : Char} (hc : c ≠ '\r') (cs : List Char) :
    unifyLines ('\\' :: c :: cs) = '\\' :: c :: unifyLines cs := by
  rw [unifyLines_cons (by decide), unifyLines_cons hc]

/-- An escape other than that of a return reads the same with unified line ends. -/
theorem escape?_unifyLines {c : Char} (hc : c ≠ '\r') (cs : List Char) : escape? c (unifyLines cs) = escape? c cs :=
  escape?_congr hc (takeWhile_unifyLines cs)

theorem drop_unifyLines {c : Char} {cs : List Char} {units : List UInt16} {n : Nat} (hc : c ≠ '\r')
    (h : escape? c cs = some (units, n)) : (unifyLines cs).drop n = unifyLines (cs.drop n) :=
  drop_of_tail unifyLines_cons_of_isEscapeTail n cs (length_escape? hc h)

/-- The line feed after an escaped carriage return belongs to the escape. -/
theorem drop_return (cs : List Char) : cs.drop (if cs.head? = some '\n' then 1 else 0) = dropFeed cs := by
  unfold dropFeed
  split <;> simp

/-- Unified line ends do not matter after an escape. -/
theorem cook_unifyLines_escape {c : Char} (hc : c ≠ '\r') {cs : List Char} {units : List UInt16} {n : Nat}
    (h : escape? c cs = some (units, n)) :
    cook (unifyLines ('\\' :: c :: cs)) = units ++ cook (unifyLines (cs.drop n)) := by
  have h' : escape? c (unifyLines cs) = some (units, n) := by rw [escape?_unifyLines hc, h]
  rw [unifyLines_escape hc, cook_escape h', drop_unifyLines hc h]

/-- An escaped carriage return ends a line, like an escaped line feed. -/
theorem cook_unifyLines_continuation (cs : List Char) :
    cook (unifyLines ('\\' :: '\r' :: cs)) = cook (unifyLines (dropFeed cs)) := by
  rw [unifyLines_cons (by decide), unifyLines_return, cook_escape rfl]
  rfl

theorem cook_unifyLines_return (cs : List Char) :
    cook (unifyLines ('\r' :: cs)) = 10 :: cook (unifyLines (dropFeed cs)) := by
  rw [unifyLines_return, cook_cons_of_ne (by decide)]
  rfl

theorem cook_unifyLines_plain {c : Char} (hslash : c ≠ '\\') (hreturn : c ≠ '\r') (cs : List Char) :
    cook (unifyLines (c :: cs)) = utf16 c.toNat ++ cook (unifyLines cs) := by
  rw [unifyLines_cons hreturn, cook_cons_of_ne hslash]

/-- With line feeds for all line ends, a template is still one. -/
theorem isBody_unifyLines (cs : List Char) (h : isBody '`' cs = true) : isBody '`' (unifyLines cs) = true := by
  fun_induction isBody '`' cs with
  | case1 => rw [unifyLines, isBody]
  | case2 c cs units n hesc ih =>
    obtain ⟨hallows, h⟩ := Bool.and_eq_true_iff.1 h
    by_cases hc : c = '\r'
    · subst hc
      rw [escape?_return] at hesc
      obtain ⟨-, rfl⟩ := Prod.mk.inj (Option.some.inj hesc)
      rw [drop_return] at ih h
      rw [unifyLines_cons (by decide), unifyLines_return, isBody]
      exact ih h
    · have hesc' : escape? c (unifyLines cs) = some (units, n) := by rw [escape?_unifyLines hc, hesc]
      rw [unifyLines_escape hc, isBody, hesc']
      dsimp only
      rw [drop_unifyLines hc hesc, ih h, Bool.and_true, allowsEscape, head?_unifyLines_digit]
      exact hallows
  | case3 c cs hesc => cases h
  | case4 c cs hplain ih =>
    obtain ⟨hallows, h⟩ := Bool.and_eq_true_iff.1 h
    have hslash := ne_slash_of_allowsPlain hallows
    by_cases hc : c = '\r'
    · subst hc
      have ih := ih h
      rw [unifyLines_return]
      unfold dropFeed
      split
      · rename_i hfeed
        obtain ⟨ds, rfl⟩ := List.head?_eq_some_iff.1 hfeed
        rwa [unifyLines_cons (by decide)] at ih
      · rw [isBody, ih]
        · rfl
        · exact fun _ _ e => absurd e (by decide)
    · rw [unifyLines_cons hc, isBody, ih h, Bool.and_true, allowsPlain, head?_unifyLines_brace]
      · exact hallows
      · exact fun _ _ e => absurd e hslash

/-! ## The value of what is written -/

theorem cook_requoteBody_continuation {quote : Char} (hq : IsQuote quote) (cs : List Char) :
    cook (requoteBody quote ('\\' :: '\r' :: cs)) = cook (requoteBody quote cs) := by
  have hquote : ¬ ('\r' = quote ∧ quote ≠ '\'') := by
    rintro ⟨rfl, -⟩
    rcases hq with h | h | h <;> exact absurd h (by decide)
  rw [requoteBody, if_neg hquote, List.cons_append, List.cons_append, List.nil_append,
    cook_escape (escape?_return _), if_neg (head?_requoteBody hq cs)]
  rfl

/-- A line feed at the front of a text stands for one unit more, whether it is rewritten or not. -/
theorem length_cook_dropFeed_le {f : List Char → List Char}
    (hf : ∀ cs, cook (f ('\n' :: cs)) = 10 :: cook (f cs)) (cs : List Char) :
    (cook (f (dropFeed cs))).length ≤ (cook (f cs)).length := by
  unfold dropFeed
  split
  · rename_i hfeed
    obtain ⟨ds, rfl⟩ := List.head?_eq_some_iff.1 hfeed
    rw [hf, List.tail_cons, List.length_cons]
    omega
  · exact Nat.le_refl _

theorem cook_requoteBody_feed {quote : Char} (cs : List Char) :
    cook (requoteBody quote ('\n' :: cs)) = 10 :: cook (requoteBody quote cs) := cook_requoteBody_plain (by decide) cs

theorem cook_unifyLines_feed (cs : List Char) : cook (unifyLines ('\n' :: cs)) = 10 :: cook (unifyLines cs) :=
  cook_unifyLines_plain (by decide) (by decide) cs

/-- What is written for line ends is never shorter than they are. -/
theorem length_cook_unifyLines_le {quote : Char} (hq : IsQuote quote) (cs : List Char) (h : isBody quote cs = true) :
    (cook (unifyLines cs)).length ≤ (cook (requoteBody quote cs)).length := by
  fun_induction isBody quote cs with
  | case1 => simp [unifyLines, requoteBody]
  | case2 c cs units n hesc ih =>
    have ih := ih (Bool.and_eq_true_iff.1 h).2
    by_cases hc : c = '\r'
    · subst hc
      rw [escape?_return] at hesc
      obtain ⟨-, rfl⟩ := Prod.mk.inj (Option.some.inj hesc)
      rw [drop_return] at ih
      rw [cook_unifyLines_continuation, cook_requoteBody_continuation hq]
      exact ih.trans (length_cook_dropFeed_le cook_requoteBody_feed cs)
    · rw [cook_unifyLines_escape hc hesc, cook_requoteBody_escape hq hc hesc, List.length_append, List.length_append]
      omega
  | case3 c cs hesc => cases h
  | case4 c cs hplain ih =>
    obtain ⟨hallows, h⟩ := Bool.and_eq_true_iff.1 h
    have ih := ih h
    have hslash := ne_slash_of_allowsPlain hallows
    rw [cook_requoteBody_plain hslash, List.length_append]
    by_cases hc : c = '\r'
    · subst hc
      have hfeed := length_cook_dropFeed_le cook_unifyLines_feed cs
      have hunit : (utf16 '\r'.toNat).length = 1 := rfl
      rw [cook_unifyLines_return, List.length_cons, hunit]
      omega
    · rw [cook_unifyLines_plain hslash hc, List.length_append]
      omega

/-- Dropping the rest of an escape drops no return. -/
theorem returnsEscaped_drop {n : Nat} {cs : List Char} (h : n ≤ (cs.takeWhile isEscapeTail).length) :
    returnsEscaped (cs.drop n) = returnsEscaped cs := by
  induction n generalizing cs with
  | zero => rfl
  | succ n ih =>
    cases cs with
    | nil => rfl
    | cons c cs =>
      cases hc : isEscapeTail c with
      | false => simp [hc] at h
      | true =>
        rw [List.takeWhile_cons_of_pos hc, List.length_cons] at h
        rw [List.drop_succ_cons, ih (by omega), returnsEscaped]
        · simp [ne_of_isEscapeTail hc (d := '\r') (by decide)]
        · exact fun _ _ e => absurd e (ne_of_isEscapeTail hc (by decide))

/-- What is written has the value of the template exactly if its carriage returns are escaped and stand alone. -/
theorem cook_requoteBody_eq_iff {quote : Char} (hq : IsQuote quote) (cs : List Char) (h : isBody quote cs = true) :
    cook (requoteBody quote cs) = cook (unifyLines cs) ↔ returnsEscaped cs = true := by
  fun_induction isBody quote cs with
  | case1 => simp [unifyLines, requoteBody, returnsEscaped]
  | case2 c cs units n hesc ih =>
    have hrest := (Bool.and_eq_true_iff.1 h).2
    by_cases hc : c = '\r'
    · subst hc
      rw [escape?_return] at hesc
      obtain ⟨-, rfl⟩ := Prod.mk.inj (Option.some.inj hesc)
      rw [drop_return] at ih hrest
      rw [cook_unifyLines_continuation, cook_requoteBody_continuation hq, returnsEscaped]
      by_cases hfeed : cs.head? = some '\n'
      · -- the line feed of the pair is written by itself
        obtain ⟨ds, rfl⟩ := List.head?_eq_some_iff.1 hfeed
        have hlength := length_cook_unifyLines_le hq ds hrest
        constructor
        · intro heq
          have := congrArg List.length heq
          rw [cook_requoteBody_feed, List.length_cons, show dropFeed ('\n' :: ds) = ds from rfl] at this
          omega
        · simp
      · rw [dropFeed, if_neg hfeed] at ih hrest ⊢
        rw [ih hrest]
        simp [hfeed]
    · rw [cook_unifyLines_escape hc hesc, cook_requoteBody_escape hq hc hesc, List.append_right_inj, ih hrest,
        returnsEscaped_drop (length_escape? hc hesc), returnsEscaped]
      simp [hc]
  | case3 c cs hesc => cases h
  | case4 c cs hplain ih =>
    obtain ⟨hallows, h⟩ := Bool.and_eq_true_iff.1 h
    have hslash := ne_slash_of_allowsPlain hallows
    rw [cook_requoteBody_plain hslash, returnsEscaped]
    · by_cases hc : c = '\r'
      · -- a carriage return is not a line feed
        subst hc
        rw [cook_unifyLines_return]
        simp [utf16]
      · rw [cook_unifyLines_plain hslash hc, List.append_right_inj, ih h]
        simp [hc]
    · exact fun _ _ e => absurd e hslash

/-- **Line ends of templates.** What is written for a template is a literal in single quotes, whatever its line ends are,
and for line feeds it has the value of the template. With the template's own line ends it has the same value exactly if
each carriage return is escaped and no line feed follows it. -/
theorem requote_unifyLines_iff {body : String} (h : isBody '`' body.toList = true) :
    ∃ units value, quotedValue? (requote '`' body).toList = some units ∧
      quotedValue? (requote '`' (String.ofList (unifyLines body.toList))).toList = some value ∧
      templateValue? body.toList = some value ∧ (units = value ↔ returnsEscaped body.toList = true) := by
  have hq : IsQuote '`' := .inr (.inr rfl)
  have hunified : isBody '`' (unifyLines body.toList) = true := isBody_unifyLines _ h
  refine ⟨_, cook (unifyLines body.toList), quotedValue?_requote hq h, ?_, ?_, cook_requoteBody_eq_iff hq _ h⟩
  · rw [quotedValue?_requote hq (by rwa [String.toList_ofList]), String.toList_ofList,
      cook_requoteBody hq _ (return_not_mem_unifyLines _)]
  · rw [templateValue?, literalValue?, hunified]
    rfl

/-- A template with line feeds, escapes of several lengths and a carriage return that continues a line. -/
theorem requote_unifyLines_continued : isBody '`' "it's\n\\\r\\u\x7b1F600\x7d \\\\".toList = true ∧
    ∃ units value, quotedValue? (requote '`' "it's\n\\\r\\u\x7b1F600\x7d \\\\").toList = some units ∧
      templateValue? "it's\n\\\r\\u\x7b1F600\x7d \\\\".toList = some value ∧ units = value := by
  have hbody : isBody '`' "it's\n\\\r\\u\x7b1F600\x7d \\\\".toList = true := by decide +kernel
  obtain ⟨units, value, hunits, -, hvalue, hiff⟩ := requote_unifyLines_iff hbody
  exact ⟨hbody, units, value, hunits, hvalue, hiff.2 (by decide +kernel)⟩

/-- A line of a template that ends with a carriage return and a line feed is written with both, and a continued line with
the line feed. -/
theorem requote_keeps_returns :
    isBody '`' "a\r\nb".toList = true ∧
      quotedValue? (requote '`' "a\r\nb").toList = some [97, 13, 10, 98] ∧
      quotedValue? (requote '`' (String.ofList (unifyLines "a\r\nb".toList))).toList = some [97, 10, 98] ∧
      isBody '`' "a\\\r\nb".toList = true ∧
      quotedValue? (requote '`' "a\\\r\nb").toList = some [97, 10, 98] ∧
      quotedValue? (requote '`' (String.ofList (unifyLines "a\\\r\nb".toList))).toList = some [97, 98] := by
  decide +kernel

end ModuleMock.Literal
