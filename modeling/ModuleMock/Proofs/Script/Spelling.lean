import Mathlib.Data.List.Infix
import Mathlib.Data.List.TakeWhile
import ModuleMock.Script.Grammar.Atom

/-!
# How tokens are spelled

Grammars of words, numbers, quoted bodies and the gaps between tokens, and for each recogniser that what it takes from
the head of a text is in the grammar of its class.

- `WordToken`, `NumberToken`: identifiers and numbers (`wordLength?_heads`, `numberLength?_heads`);
- `Body`: what stands between quotation marks, with every backslash followed by what it escapes (`quotedTail_heads`);
- `Gap`: blanks and comments;
- `StringToken`, `TemplateToken`: whole literals. A string may have a gap before its closing mark; one that is read
  from a text has it only after the end of a line (`StringSpelling`).
-/

namespace ModuleMock.Script

/-- The first `n` characters of a text are in a class. -/
def Heads (T : List Char → Prop) (cs : List Char) (n : Nat) : Prop := ∃ t rest, cs = t ++ rest ∧ t.length = n ∧ T t

namespace Heads

variable {T U : List Char → Prop} {cs : List Char} {n : Nat}

theorem take (h : Heads T cs n) : T (cs.take n) := by
  obtain ⟨t, rest, rfl, rfl, ht⟩ := h
  rwa [List.take_left]

/-- A head that is spelled in one way is spelled in every wider one. -/
theorem imp (h : Heads T cs n) (htu : ∀ t, T t → U t) : Heads U cs n := by
  obtain ⟨t, rest, hcs, hn, ht⟩ := h
  exact ⟨t, rest, hcs, hn, htu t ht⟩

/-- A fixed beginning before a class. -/
theorem append (lead : List Char) (h : Heads T cs n) (htu : ∀ t, T t → U (lead ++ t)) :
    Heads U (lead ++ cs) (lead.length + n) := by
  obtain ⟨t, rest, rfl, rfl, ht⟩ := h
  exact ⟨lead ++ t, rest, by simp, by simp, htu t ht⟩

/-- One class after another. -/
theorem andThen {V : List Char → Prop} {m : Nat} (h : Heads T cs n) (h' : Heads U (cs.drop n) m)
    (hv : ∀ t u, T t → U u → V (t ++ u)) : Heads V cs (n + m) := by
  obtain ⟨t, rest, rfl, rfl, ht⟩ := h
  rw [List.drop_left] at h'
  obtain ⟨u, rest', rfl, rfl, hu⟩ := h'
  exact ⟨t ++ u, rest', by simp, by simp, hv t u ht hu⟩

end Heads

/-! ## Numbers -/

/-- Digits of a class, with single underscores before some of them. -/
inductive DigitTail (digit : Char → Bool) : List Char → Prop
  | nil : DigitTail digit []
  | next {d : Char} {cs : List Char} (hd : digit d) (h : DigitTail digit cs) : DigitTail digit (d :: cs)
  | spaced {d : Char} {cs : List Char} (hd : digit d) (h : DigitTail digit cs) : DigitTail digit ('_' :: d :: cs)

/-- Digits of a class, with single underscores between some of them. -/
inductive Digits (digit : Char → Bool) : List Char → Prop
  | intro {d : Char} {cs : List Char} (hd : digit d) (h : DigitTail digit cs) : Digits digit (d :: cs)

inductive Exponent : List Char → Prop
  | intro {e : Char} {sign ds : List Char} (he : e = 'e' ∨ e = 'E') (hs : sign = [] ∨ sign = ['+'] ∨ sign = ['-'])
      (h : Digits isDigit ds) : Exponent (e :: (sign ++ ds))

/-- Digits, or a radix mark with digits of that radix. -/
inductive IntegerToken : List Char → Prop
  | plain {ds : List Char} (h : Digits isDigit ds) : IntegerToken ds
  | hexadecimal {x : Char} {ds : List Char} (hx : x = 'x' ∨ x = 'X') (h : Digits isHexDigit ds) :
      IntegerToken ('0' :: x :: ds)
  | binary {x : Char} {ds : List Char} (hx : x = 'b' ∨ x = 'B') (h : Digits isBinaryDigit ds) :
      IntegerToken ('0' :: x :: ds)
  | octal {x : Char} {ds : List Char} (hx : x = 'o' ∨ x = 'O') (h : Digits isOctalDigit ds) :
      IntegerToken ('0' :: x :: ds)

/-- A numeric token. -/
inductive NumberToken : List Char → Prop
  | integer {ds : List Char} (h : IntegerToken ds) : NumberToken ds
  | big {ds : List Char} (h : IntegerToken ds) : NumberToken (ds ++ ['n'])
  | exponent {whole e : List Char} (hw : Digits isDigit whole) (he : Exponent e) : NumberToken (whole ++ e)
  | pointed {whole fraction e : List Char} (hw : Digits isDigit whole) (hf : fraction = [] ∨ Digits isDigit fraction)
      (he : e = [] ∨ Exponent e) : NumberToken (whole ++ '.' :: (fraction ++ e))
  | fraction {fraction e : List Char} (hf : Digits isDigit fraction) (he : e = [] ∨ Exponent e) :
      NumberToken ('.' :: (fraction ++ e))

theorem digitTail_heads (digit : Char → Bool) (cs : List Char) :
    Heads (DigitTail digit) cs (digitTail digit cs) := by
  fun_induction digitTail digit cs with
  | case1 d cs hd ih => exact ih.append ['_', d] fun _ ht => .spaced hd ht
  | case2 d cs hd => exact ⟨[], _, rfl, rfl, .nil⟩
  | case3 d cs _ hd ih => exact ih.append [d] fun _ ht => .next hd ht
  | case4 d cs _ hd => exact ⟨[], _, rfl, rfl, .nil⟩
  | case5 => exact ⟨[], _, rfl, rfl, .nil⟩

/-- The length of digits after the first covers digits. -/
theorem digits_heads {digit : Char → Bool} {d : Char} (hd : digit d) (cs : List Char) :
    Heads (Digits digit) (d :: cs) (1 + digitTail digit cs) :=
  (digitTail_heads digit cs).append [d] fun _ ht => .intro hd ht

/-- The length that is found for digits covers digits. -/
theorem digitsLength?_heads {digit : Char → Bool} {cs : List Char} {n : Nat} (h : digitsLength? digit cs = some n) :
    Heads (Digits digit) cs n := by
  cases cs with
  | nil => cases h
  | cons d cs =>
    simp only [digitsLength?] at h
    split at h <;> cases h
    rename_i hd
    exact digits_heads hd cs

/-- The length that is found for an exponent covers one. -/
theorem exponentLength?_heads {cs : List Char} {n : Nat} (h : exponentLength? cs = some n) :
    Heads Exponent cs n := by
  cases cs with
  | nil => cases h
  | cons e cs =>
    simp only [exponentLength?] at h
    split at h
    case isFalse => cases h
    case isTrue he =>
      have he : e = 'e' ∨ e = 'E' := by simpa using he
      split at h <;> obtain ⟨k, hk, rfl⟩ := Option.map_eq_some_iff.1 h
      · exact (digitsLength?_heads hk).append [e, '+'] fun _ ht => .intro he (.inr (.inl rfl)) ht
      · exact (digitsLength?_heads hk).append [e, '-'] fun _ ht => .intro he (.inr (.inr rfl)) ht
      · exact (digitsLength?_heads hk).append [e] fun _ ht => .intro he (.inl rfl) ht

/-- A part that a recogniser finds or leaves out. -/
theorem orZero_heads {T : List Char → Prop} {length? : List Char → Option Nat}
    (h : ∀ {cs n}, length? cs = some n → Heads T cs n) (cs : List Char) :
    Heads (fun t => t = [] ∨ T t) cs (orZero (length? cs)) := by
  cases hl : length? cs with
  | none => exact ⟨[], cs, rfl, rfl, .inl rfl⟩
  | some n => exact (h hl).imp fun _ => .inr

/-- The length that is found before the point covers digits. -/
theorem wholePartLength?_heads {cs : List Char} {n : Nat} (h : wholePartLength? cs = some n) :
    Heads (Digits isDigit) cs n := by
  unfold wholePartLength? at h
  split at h
  · rename_i d cs
    split at h <;> cases h
    · rename_i hd
      have hd : isDigit d := by
        simp only [isDigit, Bool.and_eq_true, decide_eq_true_eq] at hd ⊢
        exact ⟨Char.le_trans (by decide) hd.1, hd.2⟩
      exact (digitTail_heads isDigit cs).append ['0', d] fun _ ht => .intro (by decide) (.next hd ht)
    · exact ⟨['0'], _, rfl, rfl, .intro (by decide) .nil⟩
  · cases h
    exact ⟨['0'], _, rfl, rfl, .intro (by decide) .nil⟩
  · split at h <;> cases h
    rename_i hd
    exact digits_heads hd _
  · cases h

/-- The length that is found for a decimal number covers a number token. -/
theorem decimalLength?_heads {cs : List Char} {n : Nat} (h : decimalLength? cs = some n) :
    Heads NumberToken cs n := by
  unfold decimalLength? at h
  extract_lets plain pointed at h
  have hexponent := orZero_heads exponentLength?_heads
  have hplain : ∀ k, plain = some k → Heads NumberToken cs k := fun k hk =>
    (digitsLength?_heads hk).imp fun _ ht => .integer (.plain ht)
  have hpointed : ∀ k, pointed = some k → Heads NumberToken cs k := by
    intro k hk
    unfold pointed at hk
    split at hk
    · rename_i ds
      obtain ⟨m, hm, rfl⟩ := Option.map_eq_some_iff.1 hk
      have hrest := (digitsLength?_heads hm).andThen (hexponent (ds.drop m))
        (V := fun t => NumberToken ('.' :: t)) fun _ _ ht hu => .fraction ht hu
      rw [Nat.add_assoc]
      exact hrest.append ['.'] fun _ ht => ht
    · split at hk
      · cases hk
      · rename_i w hw
        have hwhole := wholePartLength?_heads hw
        split at hk
        · rename_i ds hd
          have hfraction : Heads (fun t => t = [] ∨ Digits isDigit t) ds (orZero (digitsLength? isDigit ds)) :=
            orZero_heads digitsLength?_heads ds
          have hrest := (hfraction.andThen (hexponent _)
            (V := fun t => ∀ whole, Digits isDigit whole → NumberToken (whole ++ '.' :: t))
            fun _ _ hf he _ hw => .pointed hw hf he).append ['.']
            (U := fun t => ∀ whole, Digits isDigit whole → NumberToken (whole ++ t)) fun _ ht => ht
          rw [List.singleton_append, ← hd] at hrest
          obtain rfl := Option.some.inj hk
          rw [Nat.add_assoc, Nat.add_assoc]
          exact hwhole.andThen hrest fun t _ ht hu => hu t ht
        · obtain ⟨m, hm, rfl⟩ := Option.map_eq_some_iff.1 hk
          exact hwhole.andThen (exponentLength?_heads hm) fun _ _ ht hu => .exponent ht hu
  clear_value plain pointed
  split at h
  · rename_i a b
    obtain rfl := Option.some.inj h
    rcases Nat.le_total a b with hab | hab
    · rw [Nat.max_eq_right hab]
      exact hpointed b rfl
    · rw [Nat.max_eq_left hab]
      exact hplain a rfl
  · obtain rfl := Option.some.inj h
    exact hplain _ rfl
  · exact hpointed n h

/-- The length that is found for a number in another radix covers an integer token. -/
theorem radixLength?_heads {cs : List Char} {n : Nat} (h : radixLength? cs = some n) : Heads IntegerToken cs n := by
  unfold radixLength? at h
  split at h
  case h_2 => cases h
  case h_1 x ds =>
    split at h
    · rename_i hx
      obtain ⟨m, hm, rfl⟩ := Option.map_eq_some_iff.1 h
      exact (digitsLength?_heads hm).append ['0', x] fun _ ht => .hexadecimal (by simpa using hx) ht
    split at h
    · rename_i hx
      obtain ⟨m, hm, rfl⟩ := Option.map_eq_some_iff.1 h
      exact (digitsLength?_heads hm).append ['0', x] fun _ ht => .binary (by simpa using hx) ht
    split at h
    · rename_i hx
      obtain ⟨m, hm, rfl⟩ := Option.map_eq_some_iff.1 h
      exact (digitsLength?_heads hm).append ['0', x] fun _ ht => .octal (by simpa using hx) ht
    · cases h

/-- A number is taken whole from the head of a text. -/
theorem numberLength?_heads {cs : List Char} {n : Nat} (h : numberLength? cs = some n) : Heads NumberToken cs n := by
  unfold numberLength? at h
  extract_lets big candidates at h
  have hbig : ∀ m, (∀ k, m = some k → Heads IntegerToken cs k) → big m = some n → Heads NumberToken cs n := by
    intro m hm hn
    obtain ⟨k, hk, hn⟩ := Option.bind_eq_some_iff.1 hn
    split at hn <;> cases hn
    rename_i hhead
    refine (hm k hk).andThen (U := fun t => t = ['n']) ?_ fun _ _ ht hu => hu ▸ .big ht
    cases hd : cs.drop k with
    | nil => simp [hd] at hhead
    | cons c rest =>
      obtain rfl : c = 'n' := by simpa [hd] using hhead
      exact ⟨['n'], rest, rfl, rfl, rfl⟩
  have hmem := List.max?_mem h
  simp only [candidates, List.mem_filterMap, id_eq, List.mem_cons, List.not_mem_nil, or_false] at hmem
  obtain ⟨_, rfl | rfl | rfl | rfl, hn⟩ := hmem
  · exact (radixLength?_heads hn).imp fun _ => .integer
  · exact decimalLength?_heads hn
  · exact hbig _ (fun _ => radixLength?_heads) hn
  · exact hbig _ (fun _ hk => (digitsLength?_heads hk).imp fun _ => .plain) hn

/-! ## Words -/

/-- A Unicode escape in a word. -/
inductive WordEscape : List Char → Prop
  | four {a b c d : Char} (ha : isHexDigit a) (hb : isHexDigit b) (hc : isHexDigit c) (hd : isHexDigit d) :
      WordEscape ['\\', 'u', a, b, c, d]
  | braces {digits : List Char} (h : ∀ c ∈ digits, isHexDigit c) : WordEscape ('\\' :: 'u' :: '{' :: (digits ++ ['}']))

inductive WordTail : List Char → Prop
  | nil : WordTail []
  | part {c : Char} {cs : List Char} (hc : isWordPart c) (h : WordTail cs) : WordTail (c :: cs)
  | escape {e cs : List Char} (he : WordEscape e) (h : WordTail cs) : WordTail (e ++ cs)

/-- An identifier or keyword. -/
inductive WordToken : List Char → Prop
  | part {c : Char} {cs : List Char} (hc : isWordStart c) (h : WordTail cs) : WordToken (c :: cs)
  | escape {e cs : List Char} (he : WordEscape e) (h : WordTail cs) : WordToken (e ++ cs)

theorem takeWhile_heads (p : Char → Bool) (cs : List Char) :
    Heads (fun t => ∀ c ∈ t, p c) cs (cs.takeWhile p).length :=
  ⟨cs.takeWhile p, cs.dropWhile p, List.takeWhile_append_dropWhile.symm, rfl, fun _ => List.mem_takeWhile_imp⟩

/-- The length that is found for an escape in a word covers one. -/
theorem wordEscapeLength?_heads {cs : List Char} {n : Nat} (h : wordEscapeLength? cs = some n) :
    Heads WordEscape cs n := by
  unfold wordEscapeLength? at h
  split at h
  · rename_i cs
    extract_lets digits at h
    split at h <;> cases h
    rename_i hclose
    have hdigits := takeWhile_heads isHexDigit cs
    have hbrace : Heads (fun t => t = ['}']) (cs.drop digits.length) 1 := by
      cases hd : cs.drop digits.length with
      | nil => simp [hd] at hclose
      | cons c rest =>
        obtain rfl : c = '}' := by simp [hd] at hclose; exact hclose.2
        exact ⟨['}'], rest, rfl, rfl, rfl⟩
    have hrest := hdigits.andThen hbrace (V := fun t => WordEscape ('\\' :: 'u' :: '{' :: t))
      fun _ _ ht hu => hu ▸ .braces ht
    rw [show 4 + digits.length = 3 + (digits.length + 1) by omega]
    exact hrest.append ['\\', 'u', '{'] fun _ ht => ht
  · split at h <;> cases h
    rename_i hex
    simp only [Bool.and_eq_true] at hex
    exact ⟨_, _, rfl, rfl, .four hex.1.1.1 hex.1.1.2 hex.1.2 hex.2⟩
  · cases h

/-- Each step of a word covers one of its characters or an escape. -/
theorem wordStep?_heads {part : Char → Bool} {cs : List Char} {n : Nat} (h : wordStep? part cs = some n) :
    Heads (fun t => (∃ c, part c ∧ t = [c]) ∨ WordEscape t) cs n := by
  unfold wordStep? at h
  split at h
  · cases h
  · rename_i c rest
    split at h
    · rename_i hc
      cases h
      exact ⟨[c], rest, rfl, rfl, .inl ⟨c, hc, rfl⟩⟩
    · exact (wordEscapeLength?_heads h).imp fun _ => .inr

/-- The length that is found for the rest of a word covers it. -/
theorem wordTail_heads (fuel : Nat) (cs : List Char) : Heads WordTail cs (wordTail fuel cs) := by
  fun_induction wordTail fuel cs with
  | case1 cs => exact ⟨[], cs, rfl, rfl, .nil⟩
  | case2 fuel cs n hn ih =>
    refine (wordStep?_heads hn).andThen ih fun t u ht hu => ?_
    rcases ht with ⟨c, hc, rfl⟩ | ht
    · exact .part hc hu
    · exact .escape ht hu
  | case3 fuel cs _ => exact ⟨[], cs, rfl, rfl, .nil⟩

/-- A word is taken whole from the head of a text. -/
theorem wordLength?_heads {cs : List Char} {n : Nat} (h : wordLength? cs = some n) : Heads WordToken cs n := by
  obtain ⟨m, hm, rfl⟩ := Option.map_eq_some_iff.1 h
  refine (wordStep?_heads hm).andThen (wordTail_heads _ _) fun t u ht hu => ?_
  rcases ht with ⟨c, hc, rfl⟩ | ht
  · exact .part hc hu
  · exact .escape ht hu

/-- A name after a number sign. -/
inductive PrivateToken : List Char → Prop
  | intro {cs : List Char} (h : WordToken cs) : PrivateToken ('#' :: cs)

/-- The length that is found for a private name covers one. -/
theorem privateNameLength?_heads {cs : List Char} {n : Nat} (h : privateNameLength? cs = some n) :
    Heads PrivateToken cs n := by
  unfold privateNameLength? at h
  split at h
  · obtain ⟨m, hm, rfl⟩ := Option.map_eq_some_iff.1 h
    exact (wordLength?_heads hm).append ['#'] fun _ ht => .intro ht
  · cases h

/-! ## Between quotation marks -/

/-- Characters of a class, and escapes: no backslash is left without what it escapes. -/
inductive Body (plain : Char → Prop) : List Char → Prop
  | nil : Body plain []
  | plain {c : Char} {cs : List Char} (hc : plain c) (h : Body plain cs) : Body plain (c :: cs)
  | escape {c : Char} {cs : List Char} (h : Body plain cs) : Body plain ('\\' :: c :: cs)
  /-- A line of a text with two characters at the end of lines goes on. -/
  | continuation {cs : List Char} (h : Body plain cs) : Body plain ('\\' :: '\r' :: '\n' :: cs)

/-- Characters that stand for themselves between the given quotation marks. -/
def IsStringChar (quote c : Char) : Prop := c ≠ quote ∧ c ≠ '\\' ∧ c ≠ '\n' ∧ c ≠ '\r'

namespace Body

variable {P Q : Char → Prop} {cs ds : List Char}

theorem mono (hpq : ∀ c, P c → Q c) (h : Body P cs) : Body Q cs := by
  induction h with
  | nil => exact .nil
  | plain hc _ ih => exact .plain (hpq _ hc) ih
  | escape _ ih => exact .escape ih
  | continuation _ ih => exact .continuation ih

theorem append (h : Body P cs) (h' : Body P ds) : Body P (cs ++ ds) := by
  induction h with
  | nil => exact h'
  | plain hc _ ih => exact .plain hc ih
  | escape _ ih => exact .escape ih
  | continuation _ ih => exact .continuation ih

theorem of_forall (h : ∀ c ∈ cs, P c) : Body P cs := by
  induction cs with
  | nil => exact .nil
  | cons c cs ih => exact .plain (h c List.mem_cons_self) (ih fun d hd => h d (List.mem_cons_of_mem _ hd))

end Body

/-- Characters that may follow the second one of an escape. -/
def IsEscapeRest (c : Char) : Prop := isHexDigit c ∨ c = '{' ∨ c = '}'

theorem ne_of_isEscapeRest {c d : Char} (hc : IsEscapeRest c) (hd : isHexDigit d = false) (ho : d ≠ '{')
    (hclose : d ≠ '}') : c ≠ d := by
  rintro rfl
  rcases hc with h | h | h
  · rw [hd] at h; cases h
  · exact ho h
  · exact hclose h

theorem isStringChar_of_isEscapeRest {quote c : Char} (hq : quote = '"' ∨ quote = '\'') (hc : IsEscapeRest c) :
    IsStringChar quote c := by
  refine ⟨?_, ne_of_isEscapeRest hc ?_ ?_ ?_, ne_of_isEscapeRest hc ?_ ?_ ?_, ne_of_isEscapeRest hc ?_ ?_ ?_⟩
  · rcases hq with rfl | rfl <;> exact ne_of_isEscapeRest hc (by decide) (by decide) (by decide)
  all_goals decide

/-- An escape is taken whole, so that what follows it may be read as if it were not there. -/
theorem escapeLength?_heads {P : Char → Prop} (hP : ∀ c, IsEscapeRest c → P c) {cs : List Char} {n : Nat}
    (h : escapeLength? cs = some n) : Heads (fun t => ∀ body, Body P body → Body P (t ++ body)) cs n := by
  have hhex : ∀ c, isHexDigit c → P c := fun c hc => hP c (.inl hc)
  unfold escapeLength? at h
  split at h
  · cases h
    exact ⟨['\\', '\r', '\n'], _, rfl, rfl, fun _ => .continuation⟩
  · rename_i a b _
    split at h <;> cases h
    rename_i hex
    simp only [Bool.and_eq_true] at hex
    exact ⟨['\\', 'x', a, b], _, rfl, rfl, fun _ hb => .escape (.plain (hhex a hex.1) (.plain (hhex b hex.2) hb))⟩
  · cases h
  · refine (wordEscapeLength?_heads h).imp fun t ht body hb => ?_
    cases ht with
    | four ha hb' hc hd =>
      exact .escape (.plain (hhex _ ha) (.plain (hhex _ hb') (.plain (hhex _ hc) (.plain (hhex _ hd) hb))))
    | braces hdigits =>
      have hclose : Body P ('}' :: body) := .plain (hP _ (.inr (.inr rfl))) hb
      simp only [List.cons_append, List.append_assoc]
      exact .escape (.plain (hP _ (.inr (.inl rfl)))
        ((Body.of_forall fun c hc => hhex c (hdigits c hc)).append hclose))
  · rename_i c cs _ _ _ _
    split at h
    · rename_i hc
      have hrun : ((c :: cs).take 3).takeWhile isOctalDigit = c :: (cs.take 2).takeWhile isOctalDigit := by
        rw [List.take_succ_cons, List.takeWhile_cons_of_pos hc]
      have hmore : ∀ d ∈ (cs.take 2).takeWhile isOctalDigit, P d := fun d hd => by
        refine hhex d ?_
        have := List.mem_takeWhile_imp hd
        simp only [isOctalDigit, isHexDigit, isDigit, Bool.and_eq_true, Bool.or_eq_true, decide_eq_true_eq] at this ⊢
        exact .inl (.inl ⟨this.1, Char.le_trans this.2 (by decide)⟩)
      obtain ⟨rest, hrest⟩ : c :: (cs.take 2).takeWhile isOctalDigit <+: c :: cs :=
        hrun ▸ (List.takeWhile_prefix _).trans (List.take_prefix _ _)
      obtain rfl := Option.some.inj h
      refine ⟨'\\' :: c :: (cs.take 2).takeWhile isOctalDigit, rest, ?_, ?_, fun body hb => ?_⟩
      · rw [← hrest]; rfl
      · rw [octalRun, hrun, List.length_cons, Nat.add_comm]
      · exact .escape ((Body.of_forall hmore).append hb)
    · cases h
      exact ⟨['\\', c], _, rfl, rfl, fun _ => .escape⟩
  · cases h

/-- An escape is never empty. -/
theorem escapeLength?_pos {cs : List Char} {n : Nat} (h : escapeLength? cs = some n) : 0 < n := by
  unfold escapeLength? at h
  split at h
  · cases h
    decide
  · split at h <;> cases h
    decide
  · cases h
  · obtain ⟨t, _, _, rfl, ht⟩ := wordEscapeLength?_heads h
    cases ht <;> simp
  · split at h <;> cases h
    · omega
    · decide
  · cases h

/-- The length that is found inside a string covers characters and escapes of one. -/
theorem quotedTail_heads {quote : Char} (hq : quote = '"' ∨ quote = '\'') (fuel : Nat) (cs : List Char) :
    Heads (Body (IsStringChar quote)) cs (Grammar.quotedTail quote fuel cs) := by
  fun_induction Grammar.quotedTail quote fuel cs with
  | case1 cs => exact ⟨[], cs, rfl, rfl, .nil⟩
  | case2 fuel cs n hn ih =>
    exact (escapeLength?_heads (fun _ => isStringChar_of_isEscapeRest hq) hn).andThen ih fun _ u ht hu => ht u hu
  | case3 => exact ⟨[], _, rfl, rfl, .nil⟩
  | case4 => exact ⟨[], _, rfl, rfl, .nil⟩
  | case5 fuel c rest hc _ ih =>
    refine ih.append [c] fun _ ht => .plain ?_ ht
    simpa [IsStringChar, and_assoc] using hc

/-- A body is read on until one of four characters. -/
theorem head?_drop_quotedTail {quote : Char} (fuel : Nat) (cs : List Char) (hfuel : cs.length ≤ fuel) :
    ∀ c ∈ (cs.drop (Grammar.quotedTail quote fuel cs)).head?, c = quote ∨ c = '\\' ∨ c = '\n' ∨ c = '\r' := by
  fun_induction Grammar.quotedTail quote fuel cs with
  | case1 cs => simp [List.length_eq_zero_iff.1 (Nat.le_zero.1 hfuel)]
  | case2 fuel cs n hn ih =>
    rw [← List.drop_drop]
    refine ih ?_
    have := escapeLength?_pos hn
    simp only [List.length_drop]
    omega
  | case3 => simp
  | case4 fuel c rest hc =>
    intro d hd
    obtain rfl : c = d := by simpa using hd
    simpa [or_assoc] using hc
  | case5 fuel c rest hc _ ih =>
    rw [Nat.add_comm, List.drop_succ_cons]
    exact ih (by simpa using hfuel)

/-! ## Gaps -/

/-- The text of a block comment before its closing mark. -/
def IsCommentBody (body : List Char) : Prop := ¬ ['*', '/'] <:+: body ++ ['*']

/-- Blanks and comments; a line comment is in a gap with the end of its line. -/
inductive Gap : List Char → Prop
  | nil : Gap []
  | blank {c : Char} {cs : List Char} (hc : isBlank c) (h : Gap cs) : Gap (c :: cs)
  | line {body cs : List Char} {c : Char} (hb : ∀ x ∈ body, isLineEnd x = false) (hc : isLineEnd c) (h : Gap cs) :
      Gap ('/' :: '/' :: (body ++ c :: cs))
  | block {body cs : List Char} (hb : IsCommentBody body) (h : Gap cs) : Gap ('/' :: '*' :: (body ++ '*' :: '/' :: cs))

/-- The length that is found for the rest of a block comment ends with its mark, and at the first. -/
theorem blockCommentTail?_heads (cs : List Char) : ∀ {n : Nat}, blockCommentTail? cs = some n →
    Heads (fun t => ∃ body, t = body ++ ['*', '/'] ∧ IsCommentBody body) cs n := by
  fun_induction blockCommentTail? cs with
  | case1 rest =>
    intro n h
    cases h
    exact ⟨_, rest, rfl, rfl, [], rfl, (by decide : ¬ ['*', '/'] <:+: [] ++ ['*'])⟩
  | case2 x cs hx ih =>
    intro n h
    obtain ⟨m, hm, rfl⟩ := Option.map_eq_some_iff.1 h
    obtain ⟨_, rest, rfl, rfl, body, rfl, hb⟩ := ih hm
    refine ⟨x :: (body ++ ['*', '/']), rest, rfl, by simp; omega, x :: body, rfl, fun hin => ?_⟩
    rcases List.infix_cons_iff.1 hin with hpre | hin
    · -- a closing mark at the head would have been found there
      obtain ⟨hstar, hpre⟩ := List.cons_prefix_cons.1 hpre
      cases body with
      | nil => exact absurd hpre (by decide)
      | cons y body =>
        obtain ⟨rfl, -⟩ := List.cons_prefix_cons.1 hpre
        exact hx _ hstar.symm rfl
    · exact hb hin
  | case3 => intro n h; cases h

/-- What stands after a line comment begins with the end of the line. -/
theorem isLineEnd_of_dropWhile {cs rest : List Char} {c : Char}
    (h : cs.dropWhile (fun c => !isLineEnd c) = c :: rest) : isLineEnd c := by
  have := List.head?_dropWhile_not (fun c => !isLineEnd c) cs
  rw [h] at this
  simpa using this

/-- A comment goes before a gap that leads up to something other than the end of a line. -/
theorem Gap.of_comment {cs gap rest : List Char} {n : Nat} {x : Char} (hn : commentLength? cs = some n)
    (hrest : cs.drop n = gap ++ x :: rest) (hx : isLineEnd x = false) (hgap : Gap gap) : Gap (cs.take n ++ gap) := by
  unfold commentLength? at hn
  split at hn
  · rename_i cs
    obtain rfl := Option.some.inj hn
    have hsplit := List.takeWhile_append_dropWhile (p := fun c => !isLineEnd c) (l := cs)
    have hbody : ∀ c ∈ cs.takeWhile (fun c => !isLineEnd c), isLineEnd c = false := fun c hc => by
      simpa using List.mem_takeWhile_imp hc
    generalize cs.takeWhile (fun c => !isLineEnd c) = body at *
    have hdrop : cs.dropWhile (fun c => !isLineEnd c) = gap ++ x :: rest := by
      rw [← hrest, Nat.add_comm, List.drop_succ_cons, List.drop_succ_cons]
      nth_rewrite 2 [← hsplit]
      rw [List.drop_left]
    rw [hdrop] at hsplit
    rw [Nat.add_comm, List.take_succ_cons, List.take_succ_cons, ← hsplit, List.take_left]
    -- the end of the line is the first blank of the gap
    cases hgap with
    | nil => rw [isLineEnd_of_dropWhile hdrop] at hx; cases hx
    | blank _ h => exact .line hbody (isLineEnd_of_dropWhile hdrop) h
    | line => exact absurd (isLineEnd_of_dropWhile hdrop) (by decide)
    | block => exact absurd (isLineEnd_of_dropWhile hdrop) (by decide)
  · rename_i cs
    obtain ⟨m, hm, rfl⟩ := Option.map_eq_some_iff.1 hn
    obtain ⟨body, hbody, hb⟩ := (blockCommentTail?_heads cs hm).take
    rw [Nat.add_comm, List.take_succ_cons, List.take_succ_cons, hbody]
    simpa using Gap.block hb hgap
  · cases hn

/-- A text that does not end in a backslash has none that is left alone. -/
theorem Body.of_last {c : Char} (hc : c ≠ '\\') {cs : List Char} (h : Body (· ≠ '\\') cs) :
    ∀ lead : List Char, Body (· ≠ '\\') (lead ++ c :: cs)
  | [] => .plain hc h
  | [x] => by
    by_cases hx : x = '\\'
    · exact hx ▸ .escape h
    · exact .plain hx (.plain hc h)
  | x :: y :: lead => by
    by_cases hx : x = '\\'
    · exact hx ▸ .escape (Body.of_last hc h lead)
    · exact .plain hx (Body.of_last hc h (y :: lead))

/-- There is no backslash between tokens. -/
theorem Gap.body {cs : List Char} (h : Gap cs) : Body (· ≠ '\\') cs := by
  induction h with
  | nil => exact .nil
  | blank hc _ ih =>
    refine .plain ?_ ih
    rintro rfl
    exact absurd hc (by decide)
  | @line body cs c _ hc _ ih =>
    have hc : c ≠ '\\' := by rintro rfl; exact absurd hc (by decide)
    exact ih.of_last hc ('/' :: '/' :: body)
  | @block body cs _ _ ih =>
    have hclose : Body (· ≠ '\\') ('/' :: cs) := .plain (by decide) ih
    exact hclose.of_last (by decide) ('/' :: '*' :: body)

/-- A gap that stops the body of a string begins with the end of a line. -/
theorem Gap.line_of_head? {gap : List Char} (h : Gap gap) {quote c : Char} (hq : quote = '"' ∨ quote = '\'')
    (hc : c ∈ gap.head?) (hstop : c = quote ∨ c = '\\' ∨ c = '\n' ∨ c = '\r') : c = '\n' ∨ c = '\r' := by
  have hne : c ≠ quote ∧ c ≠ '\\' := by
    cases h with
    | nil => cases hc
    | @blank d _ hd =>
      obtain rfl : d = c := by simpa using hc
      refine ⟨?_, ?_⟩
      · rintro rfl
        rcases hq with rfl | rfl <;> exact absurd hd (by decide)
      · rintro rfl
        exact absurd hd (by decide)
    | line =>
      obtain rfl : '/' = c := by simpa using hc
      exact ⟨by rcases hq with rfl | rfl <;> decide, by decide⟩
    | block =>
      obtain rfl : '/' = c := by simpa using hc
      exact ⟨by rcases hq with rfl | rfl <;> decide, by decide⟩
  rcases hstop with h | h | h
  · exact absurd h hne.1
  · exact absurd h hne.2
  · exact h

/-! ## Literals -/

/-- A string as it is written, in double or single quotation marks. -/
inductive StringToken : List Char → Prop
  | intro {quote : Char} {body gap : List Char} (hq : quote = '"' ∨ quote = '\'') (hb : Body (IsStringChar quote) body)
      (hg : Gap gap) : StringToken (quote :: (body ++ gap ++ [quote]))

/-- A string as it is read: if its body does not reach the closing mark, it ends with its line. -/
inductive StringSpelling : List Char → Prop
  | intro {quote : Char} {body gap : List Char} (hq : quote = '"' ∨ quote = '\'') (hb : Body (IsStringChar quote) body)
      (hg : Gap gap) (hline : ∀ c ∈ gap.head?, c = '\n' ∨ c = '\r') : StringSpelling (quote :: (body ++ gap ++ [quote]))

/-- The spelling of a string is a string token. -/
theorem StringSpelling.token {cs : List Char} (h : StringSpelling cs) : StringToken cs := by
  cases h with
  | intro hq hb hg _ => exact .intro hq hb hg

/-- Characters that stand for themselves in a template. -/
def IsTemplateChar (c : Char) : Prop := c ≠ '`' ∧ c ≠ '\\'

/-- A template without substitutions. -/
inductive TemplateToken : List Char → Prop
  | intro {body : List Char} (hb : Body IsTemplateChar body) : TemplateToken ('`' :: (body ++ ['`']))

end ModuleMock.Script
