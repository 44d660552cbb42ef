import ModuleMock.Proofs.Script.Spelling

/-!
# Characters of tokens

Which characters numbers and words are made of, read off their grammar.

* `isNumberPart_of_number` and `number_head`: a number is made of a few characters, and begins with a digit or a point.
* `colon_not_mem_wordTail`: no word holds a colon.
-/

namespace ModuleMock.Script

/-! ## Numbers -/

/-- Characters of numeric tokens. -/
def isNumberPart (c : Char) : Bool := isHexDigit c || "_.xXoOn+-".toList.contains c

theorem isNumberPart_of_isHexDigit {c : Char} (h : isHexDigit c = true) : isNumberPart c = true := by
  rw [isNumberPart, h, Bool.true_or]

theorem isHexDigit_of_isDigit {c : Char} (h : isDigit c = true) : isHexDigit c = true := by
  simp [isHexDigit, h]

section Numbers

variable {digit : Char → Bool} (hdigit : ∀ c, digit c = true → isHexDigit c = true)

include hdigit

theorem isNumberPart_of_digitTail {ds : List Char} (h : DigitTail digit ds) : ∀ c ∈ ds, isNumberPart c = true := by
  induction h with
  | nil => simp
  | next hd _ ih => simpa using ⟨isNumberPart_of_isHexDigit (hdigit _ hd), ih⟩
  | spaced hd _ ih => simpa using ⟨rfl, isNumberPart_of_isHexDigit (hdigit _ hd), ih⟩

/-- Digits, with separators or without, can stand in a number. -/
theorem isNumberPart_of_digits {ds : List Char} (h : Digits digit ds) : ∀ c ∈ ds, isNumberPart c = true := by
  cases h with
  | intro hd h => simpa using ⟨isNumberPart_of_isHexDigit (hdigit _ hd), isNumberPart_of_digitTail hdigit h⟩

end Numbers

/-- So can the characters of an exponent. -/
theorem isNumberPart_of_exponent {cs : List Char} (h : Exponent cs) : ∀ c ∈ cs, isNumberPart c = true := by
  cases h with
  | @intro e sign ds he hs h =>
    have hds := isNumberPart_of_digits (fun _ => isHexDigit_of_isDigit) h
    have hsign : ∀ c ∈ sign, isNumberPart c = true := by rcases hs with rfl | rfl | rfl <;> simp [isNumberPart]
    have he : isNumberPart e = true := by rcases he with rfl | rfl <;> decide
    intro c hc
    simp only [List.mem_cons, List.mem_append] at hc
    rcases hc with rfl | hc | hc
    · exact he
    · exact hsign c hc
    · exact hds c hc

/-- So can those of an integer, in every radix. -/
theorem isNumberPart_of_integer {cs : List Char} (h : IntegerToken cs) : ∀ c ∈ cs, isNumberPart c = true := by
  have hradix : ∀ {x : Char} {digit : Char → Bool} {ds : List Char}, isNumberPart x = true →
      (∀ c, digit c = true → isHexDigit c = true) → Digits digit ds → ∀ c ∈ '0' :: x :: ds, isNumberPart c = true := by
    intro x digit ds hx hdigit hds
    simpa using ⟨rfl, hx, isNumberPart_of_digits hdigit hds⟩
  cases h with
  | plain h => exact isNumberPart_of_digits (fun _ => isHexDigit_of_isDigit) h
  | hexadecimal hx h => exact hradix (by rcases hx with rfl | rfl <;> decide) (fun _ => id) h
  | binary hx h =>
    refine hradix (by rcases hx with rfl | rfl <;> decide) (fun c hc => ?_) h
    have hc : c = '0' ∨ c = '1' := by simpa [isBinaryDigit] using hc
    rcases hc with rfl | rfl <;> decide
  | octal hx h =>
    refine hradix (by rcases hx with rfl | rfl <;> decide) (fun c hc => isHexDigit_of_isDigit ?_) h
    simp only [isOctalDigit, isDigit, Bool.and_eq_true, decide_eq_true_eq] at hc ⊢
    exact ⟨hc.1, Char.le_trans hc.2 (by decide)⟩

/-- Every character of a number token can stand in a number. -/
theorem isNumberPart_of_number {cs : List Char} (h : NumberToken cs) : ∀ c ∈ cs, isNumberPart c = true := by
  have hplain : ∀ {ds : List Char}, Digits isDigit ds → ∀ c ∈ ds, isNumberPart c = true :=
    fun h => isNumberPart_of_digits (fun _ => isHexDigit_of_isDigit) h
  have hexp : ∀ {e : List Char}, e = [] ∨ Exponent e → ∀ c ∈ e, isNumberPart c = true := by
    rintro e (rfl | he)
    · simp
    · exact isNumberPart_of_exponent he
  have hfraction : ∀ {f : List Char}, f = [] ∨ Digits isDigit f → ∀ c ∈ f, isNumberPart c = true := by
    rintro f (rfl | hf)
    · simp
    · exact hplain hf
  cases h with
  | integer h => exact isNumberPart_of_integer h
  | big h => exact List.forall_mem_append.2 ⟨isNumberPart_of_integer h, List.forall_mem_singleton.2 rfl⟩
  | exponent hw he => exact List.forall_mem_append.2 ⟨hplain hw, isNumberPart_of_exponent he⟩
  | pointed hw hf he =>
    refine List.forall_mem_append.2 ⟨hplain hw, List.forall_mem_cons.2 ⟨rfl, ?_⟩⟩
    exact List.forall_mem_append.2 ⟨hfraction hf, hexp he⟩
  | fraction hf he => exact List.forall_mem_cons.2 ⟨rfl, List.forall_mem_append.2 ⟨hplain hf, hexp he⟩⟩

/-- Digits begin with a digit. -/
theorem digits_head {digit : Char → Bool} {ds : List Char} (h : Digits digit ds) (rest : List Char) :
    ∃ c cs, ds ++ rest = c :: cs ∧ digit c = true := by
  cases h with
  | intro hd _ => exact ⟨_, _, rfl, hd⟩

/-- A number begins with a digit or a point. -/
theorem number_head {cs : List Char} (h : NumberToken cs) : ∃ c ds, cs = c :: ds ∧ (isDigit c = true ∨ c = '.') := by
  have hinteger : ∀ {cs : List Char}, IntegerToken cs → ∀ rest,
      ∃ c ds, cs ++ rest = c :: ds ∧ (isDigit c = true ∨ c = '.') := by
    intro cs h rest
    cases h with
    | plain h =>
      obtain ⟨c, ds, hcs, hc⟩ := digits_head h rest
      exact ⟨c, ds, hcs, .inl hc⟩
    | hexadecimal => exact ⟨'0', _, rfl, .inl rfl⟩
    | binary => exact ⟨'0', _, rfl, .inl rfl⟩
    | octal => exact ⟨'0', _, rfl, .inl rfl⟩
  cases h with
  | integer h => simpa using hinteger h []
  | big h => exact hinteger h _
  | exponent hw _ =>
    obtain ⟨c, ds, hcs, hc⟩ := digits_head hw _
    exact ⟨c, ds, hcs, .inl hc⟩
  | pointed hw _ _ =>
    obtain ⟨c, ds, hcs, hc⟩ := digits_head hw _
    exact ⟨c, ds, hcs, .inl hc⟩
  | fraction => exact ⟨'.', _, rfl, .inr rfl⟩

/-! ## Words -/

/-- There is no colon in the escape of a word. -/
theorem colon_not_mem_wordEscape {cs : List Char} (h : WordEscape cs) : ':' ∉ cs := by
  have hhex : ∀ c, isHexDigit c = true → c ≠ ':' := by
    rintro c hc rfl
    cases hc
  cases h with
  | four ha hb hc hd =>
    simp only [List.mem_cons, List.not_mem_nil, or_false, not_or]
    exact ⟨by decide, by decide, (hhex _ ha).symm, (hhex _ hb).symm, (hhex _ hc).symm, (hhex _ hd).symm⟩
  | @braces digits h =>
    simp only [List.mem_cons, List.mem_append, List.not_mem_nil, or_false, not_or]
    exact ⟨by decide, by decide, by decide, fun hm => hhex _ (h _ hm) rfl, by decide⟩

/-- There is no colon in a word. -/
theorem colon_not_mem_wordTail {cs : List Char} (h : WordTail cs) : ':' ∉ cs := by
  induction h with
  | nil => simp
  | @part c cs hc _ ih =>
    refine List.not_mem_cons_of_ne_of_not_mem ?_ ih
    rintro rfl
    exact absurd hc (by decide)
  | escape he _ ih => exact List.not_mem_append (colon_not_mem_wordEscape he) ih

end ModuleMock.Script
