import Mathlib.Data.List.Forall2
import ModuleMock.Proofs.Script.Characters
import ModuleMock.Proofs.Literal.StringValue

/-!
# Reading literals

A reader of the values that literals stand for: single-quoted strings, numbers, `true`, `false`, `undefined`, arrays and
objects. It takes a value from the head of a text and gives what follows it.

`Reads text v` says that a text is read as a value wherever it is followed by something that can end it. There is one
lemma for each way to write a value: `reads_requote`, `reads_number`, `reads_array`, `reads_object` and the three words.
-/

namespace ModuleMock.Literal

open Script

/-! ## Values -/

/-- What a literal stands for. Numbers and keys are kept as they are written. -/
inductive Datum where
  | string (units : List UInt16)
  | number (token : String)
  | boolean (value : Bool)
  | undefined
  | array (items : List Datum)
  | object (members : List (String × Datum))

/-! ## The reader -/

/-- Characters that end a word. -/
def isDelimiter (c : Char) : Bool := c == ',' || c == ']' || c == '}'

/-- The value of a word: one of three names, or a number. -/
def wordValue? (word : List Char) : Option Datum :=
  if word = "true".toList then some (.boolean true)
  else if word = "false".toList then some (.boolean false)
  else if word = "undefined".toList then some .undefined
  else if word.head?.any fun c => isDigit c || c == '.' then some (.number (String.ofList word))
  else none

section Lists

variable {α : Type} (item : List Char → Option (α × List Char)) (close : Char)

/-- One or more items, at most `bound` of them, with commas between them and a closing mark. -/
def readSome : Nat → List Char → Option (List α × List Char)
  | 0, _ => none
  | bound + 1, cs =>
    (item cs).bind fun (a, rest) =>
      match rest with
      | ',' :: ' ' :: more => (readSome bound more).map fun p => (a :: p.1, p.2)
      | c :: more => if c = close then some ([a], more) else none
      | [] => none

/-- Items with commas between them and a closing mark. -/
def readList : List Char → Option (List α × List Char)
  | [] => none
  | c :: cs => if c = close then some ([], cs) else readSome item close (c :: cs).length (c :: cs)

end Lists

/-- Where in a string its closing mark is looked for. -/
inductive Stretch where
  | body
  /-- Between the end of a line and the closing mark. -/
  | gap
  | lineComment
  | blockComment

/-- The text of a string up to its closing mark, and what follows the mark. -/
def untilClosed (quote : Char) : Stretch → List Char → Option (List Char × List Char)
  | _, [] => none
  | .body, '\\' :: c :: cs => (untilClosed quote .body cs).map fun p => ('\\' :: c :: p.1, p.2)
  | .body, c :: cs =>
    if c = quote then some ([], cs)
    else (untilClosed quote (if c = '\n' then .gap else .body) cs).map fun p => (c :: p.1, p.2)
  | .gap, '/' :: '/' :: cs => (untilClosed quote .lineComment cs).map fun p => ('/' :: '/' :: p.1, p.2)
  | .gap, '/' :: '*' :: cs => (untilClosed quote .blockComment cs).map fun p => ('/' :: '*' :: p.1, p.2)
  | .gap, c :: cs =>
    if c = quote then some ([], cs)
    else if isBlank c then (untilClosed quote .gap cs).map fun p => (c :: p.1, p.2)
    else none
  | .lineComment, c :: cs =>
    (untilClosed quote (if isLineEnd c then .gap else .lineComment) cs).map fun p => (c :: p.1, p.2)
  | .blockComment, '*' :: '/' :: cs => (untilClosed quote .gap cs).map fun p => ('*' :: '/' :: p.1, p.2)
  | .blockComment, c :: cs => (untilClosed quote .blockComment cs).map fun p => (c :: p.1, p.2)

/-- A key: a string, or all up to the colon. -/
def readKey : List Char → Option (String × List Char)
  | [] => none
  | c :: cs =>
    if c = '"' ∨ c = '\'' then (untilClosed c .body cs).map fun p => (String.ofList (c :: (p.1 ++ [c])), p.2)
    else some (String.ofList ((c :: cs).takeWhile (· != ':')), (c :: cs).dropWhile (· != ':'))

/-- A key and its value. -/
def readMember (value : List Char → Option (Datum × List Char)) (cs : List Char) :
    Option ((String × Datum) × List Char) :=
  (readKey cs).bind fun (key, rest) =>
    match rest with
    | ':' :: ' ' :: more => (value more).map fun p => ((key, p.1), p.2)
    | _ => none

/-- A value in which at most `depth` others are nested. -/
def readWithin : Nat → List Char → Option (Datum × List Char)
  | 0, _ => none
  | depth + 1, cs =>
    match cs with
    | '\'' :: rest => (untilMark '\'' rest).map fun p => (.string (cook p.1), p.2)
    | '[' :: rest => (readList (readWithin depth) ']' rest).map fun p => (.array p.1, p.2)
    | '{' :: rest => (readList (readMember (readWithin depth)) '}' rest).map fun p => (.object p.1, p.2)
    | _ => (wordValue? (cs.takeWhile (!isDelimiter ·))).map fun v => (v, cs.dropWhile (!isDelimiter ·))

/-- The value of a text. -/
def read (text : String) : Option Datum :=
  match readWithin text.length text.toList with
  | some (v, []) => some v
  | _ => none

/-! ## Texts that are read as values -/

/-- What may follow a value: nothing, or a delimiter. -/
def Ends (rest : List Char) : Prop := ∀ c ∈ rest.head?, isDelimiter c = true

/-- The text is read as the value. -/
def Reads (text : String) (v : Datum) : Prop :=
  ∀ (depth : Nat) (rest : List Char), text.length ≤ depth → Ends rest →
    readWithin depth (text.toList ++ rest) = some (v, rest)

/-- A text that is read wherever it stands is read by itself. -/
theorem Reads.read {text : String} {v : Datum} (h : Reads text v) : read text = some v := by
  have hall := h text.length [] (Nat.le_refl _) (by simp [Ends])
  rw [List.append_nil] at hall
  rw [Literal.read, hall]

/-- A value does not begin with a delimiter. -/
theorem Reads.head {text : String} {v : Datum} (h : Reads text v) :
    ∃ c cs, text.toList = c :: cs ∧ isDelimiter c = false := by
  have hall := h (text.length + 1) [] (Nat.le_succ _) (by simp [Ends])
  rw [List.append_nil] at hall
  cases hcs : text.toList with
  | nil =>
    rw [hcs] at hall
    cases hall
  | cons c cs =>
    refine ⟨c, cs, rfl, ?_⟩
    cases hc : isDelimiter c with
    | false => rfl
    | true =>
      rw [hcs] at hall
      have hc' : c = ',' ∨ c = ']' ∨ c = '}' := by simpa [isDelimiter, or_assoc] using hc
      rcases hc' with rfl | rfl | rfl <;> simp [readWithin, wordValue?, isDelimiter] at hall

/-! ## Words and numbers -/

theorem takeWhile_append_ends {p : Char → Bool} {cs rest : List Char} (h : ∀ c ∈ cs, p c = true)
    (hrest : ∀ c ∈ rest.head?, p c = false) : (cs ++ rest).takeWhile p = cs ∧ (cs ++ rest).dropWhile p = rest := by
  rw [List.takeWhile_append_of_pos h, List.dropWhile_append_of_pos h]
  cases rest with
  | nil => simp
  | cons c rest => simp [hrest c rfl]

theorem reads_of_wordValue? {text : String} {v : Datum} (hv : wordValue? text.toList = some v)
    (hplain : ∀ c ∈ text.toList, isDelimiter c = false)
    (hhead : ∀ c ∈ text.toList.head?, c ≠ '\'' ∧ c ≠ '[' ∧ c ≠ '{') : Reads text v := by
  intro depth rest hdepth hrest
  rw [← String.length_toList] at hdepth
  have hinside : ∀ c ∈ text.toList, (!isDelimiter c) = true := by simpa using hplain
  have hafter : ∀ c ∈ rest.head?, (!isDelimiter c) = false := by simpa [Ends] using hrest
  have hword := takeWhile_append_ends hinside hafter
  cases hcs : text.toList with
  | nil =>
    rw [hcs] at hv
    cases hv
  | cons c cs =>
    rw [hcs] at hv hdepth hhead hword
    obtain ⟨hquote, hbracket, hbrace⟩ := hhead c rfl
    obtain ⟨d, rfl⟩ : ∃ d, depth = d + 1 := ⟨depth - 1, by simp at hdepth; omega⟩
    rw [List.cons_append] at hword ⊢
    rw [readWithin]
    · rw [hword.1, hword.2, hv]
      rfl
    · exact fun _ e => hquote (List.cons.inj e).1
    · exact fun _ e => hbracket (List.cons.inj e).1
    · exact fun _ e => hbrace (List.cons.inj e).1

theorem reads_true : Reads "true" (.boolean true) := reads_of_wordValue? rfl (by simp [isDelimiter]) (by simp)

theorem reads_false : Reads "false" (.boolean false) := reads_of_wordValue? rfl (by simp [isDelimiter]) (by simp)

theorem reads_absent : Reads absent .undefined :=
  reads_of_wordValue? rfl (by simp [absent, isDelimiter]) (by simp [absent])

theorem reads_number {text : String} (h : NumberToken text.toList) : Reads text (.number text) := by
  obtain ⟨c, ds, hcs, hc⟩ := number_head h
  have hparts := isNumberPart_of_number h
  have hne : ∀ d : Char, (isDigit d || d == '.') = false → c ≠ d := by
    rintro d hd rfl
    rcases hc with hc | rfl
    · simp [hc] at hd
    · cases hd
  refine reads_of_wordValue? ?_ (fun d hd => ?_) ?_
  · have hword : ∀ w : String, ∀ d ds', w.toList = d :: ds' → (isDigit d || d == '.') = false →
        text.toList ≠ w.toList := by
      intro w d ds' hw hd e
      rw [hcs, hw] at e
      exact hne d hd (List.cons.inj e).1
    rw [wordValue?, if_neg (hword "true" 't' _ rfl rfl), if_neg (hword "false" 'f' _ rfl rfl),
      if_neg (hword "undefined" 'u' _ rfl rfl), if_pos, String.ofList_toList]
    rw [hcs]
    rcases hc with hc | rfl
    · simp [hc]
    · rfl
  · have := hparts d hd
    cases hdel : isDelimiter d with
    | false => rfl
    | true =>
      have hd' : d = ',' ∨ d = ']' ∨ d = '}' := by simpa [isDelimiter, or_assoc] using hdel
      rcases hd' with rfl | rfl | rfl <;> cases this
  · intro d hd
    obtain rfl : c = d := by simpa [hcs] using hd
    exact ⟨hne _ rfl, hne _ rfl, hne _ rfl⟩

/-! ## Strings -/

/-- What is written for a string is read as what its body stands for. -/
theorem reads_requote {quote : Char} (hq : IsQuote quote) {body : String} (hb : Body (· ≠ '\\') body.toList)
    (hcr : '\r' ∉ body.toList) : Reads (requote quote body) (.string (cook body.toList)) := by
  intro depth rest hdepth hrest
  have htext : (requote quote body).toList = '\'' :: (requoteBody quote body.toList ++ ['\'']) := by simp [requote]
  obtain ⟨d, rfl⟩ : ∃ d, depth = d + 1 := by
    rw [← String.length_toList, htext] at hdepth
    exact ⟨depth - 1, by simp at hdepth; omega⟩
  rw [htext, List.cons_append, List.append_assoc, List.singleton_append, readWithin,
    untilMark_of_body (.inr rfl) (body_requoteBody hq hb), ← cook_requoteBody hq _ hcr]
  rfl

/-! ## Lists -/

section Lists

variable {α : Type}

/-- An item reads a text, wherever it may end, and the closing mark is no such text. -/
structure ReadsItem (item : List Char → Option (α × List Char)) (close : Char) (text : List Char) (a : α) : Prop where
  head : ∃ c cs, text = c :: cs ∧ c ≠ close
  reads : ∀ rest, Ends rest → item (text ++ rest) = some (a, rest)

theorem ends_cons {c : Char} (h : isDelimiter c = true) (rest : List Char) : Ends (c :: rest) := by
  simpa [Ends] using h

variable {item : List Char → Option (α × List Char)} {close : Char}

theorem readSome_intercalate (hclose : isDelimiter close = true) (hcomma : close ≠ ',') (rest : List Char)
    {texts : List (List Char)} {as : List α} (h : List.Forall₂ (ReadsItem item close) texts as) (hne : texts ≠ [])
    (bound : Nat) (hbound : texts.length ≤ bound) :
    readSome item close bound (List.intercalate [',', ' '] texts ++ close :: rest) = some (as, rest) := by
  induction h generalizing bound with
  | nil => exact absurd rfl hne
  | @cons text a texts as htext htexts ih =>
    obtain ⟨bound, rfl⟩ : ∃ b, bound = b + 1 := ⟨bound - 1, by simp at hbound; omega⟩
    cases texts with
    | nil =>
      cases htexts
      rw [List.intercalate_singleton, readSome, htext.reads _ (ends_cons hclose rest)]
      simp [hcomma]
    | cons next texts =>
      have hmore := ih (by simp) bound (by simpa using hbound)
      rw [List.intercalate_cons_cons, List.append_assoc, List.append_assoc, List.cons_append, List.cons_append,
        List.nil_append, readSome, htext.reads _ (ends_cons rfl _)]
      simp [hmore]

theorem length_le_length_intercalate : ∀ texts : List (List Char),
    texts.length ≤ (List.intercalate [',', ' '] texts).length + 1
  | [] => Nat.zero_le _
  | [text] => by simp
  | text :: next :: texts => by
    have := length_le_length_intercalate (next :: texts)
    rw [List.intercalate_cons_cons]
    simp only [List.length_cons, List.length_append] at this ⊢
    omega

theorem readList_intercalate (hclose : isDelimiter close = true) (hcomma : close ≠ ',') (rest : List Char)
    {texts : List (List Char)} {as : List α} (h : List.Forall₂ (ReadsItem item close) texts as) :
    readList item close (List.intercalate [',', ' '] texts ++ close :: rest) = some (as, rest) := by
  cases texts with
  | nil =>
    cases h
    simp [List.intercalate, readList]
  | cons text texts =>
    obtain ⟨c, cs, rfl, hc⟩ : ∃ c cs, text = c :: cs ∧ c ≠ close := by
      cases h with
      | cons htext _ => exact htext.head
    obtain ⟨cs', hjoined⟩ : ∃ cs', List.intercalate [',', ' '] ((c :: cs) :: texts) ++ close :: rest = c :: cs' := by
      cases texts with
      | nil => exact ⟨_, rfl⟩
      | cons next texts =>
        rw [List.intercalate_cons_cons]
        exact ⟨_, rfl⟩
    have hlength : ((c :: cs) :: texts).length ≤ (c :: cs').length := by
      have := length_le_length_intercalate ((c :: cs) :: texts)
      rw [← hjoined]
      simp only [List.length_append, List.length_cons] at this ⊢
      omega
    have hsome := readSome_intercalate hclose hcomma rest h (by simp) _ hlength
    rw [hjoined] at hsome ⊢
    rw [readList, if_neg hc, hsome]

theorem length_le_intercalate (sep : List Char) {texts : List (List Char)} {text : List Char} (h : text ∈ texts) :
    text.length ≤ (List.intercalate sep texts).length := by
  induction texts with
  | nil => cases h
  | cons first texts ih =>
    cases texts with
    | nil =>
      obtain rfl := List.mem_singleton.1 h
      simp
    | cons next texts =>
      rw [List.intercalate_cons_cons]
      simp only [List.length_append]
      rcases List.mem_cons.1 h with rfl | h
      · omega
      · have := ih h
        omega

/-- A relation between texts and values carries over to their reading when all texts fit. -/
theorem forall₂_readsItem {R : String → α → Prop} {depth : Nat}
    (hitem : ∀ text a, R text a → text.length ≤ depth → ReadsItem item close text.toList a)
    {texts : List String} {as : List α} (h : List.Forall₂ R texts as) (hdepth : ∀ text ∈ texts, text.length ≤ depth) :
    List.Forall₂ (ReadsItem item close) (texts.map String.toList) as := by
  induction h with
  | nil => exact .nil
  | cons hr _ ih =>
    refine .cons (hitem _ _ hr (hdepth _ List.mem_cons_self)) (ih fun text ht => ?_)
    exact hdepth text (List.mem_cons_of_mem _ ht)

/-- Texts that are read as items one by one are read together when they are joined. -/
theorem readList_joined (hclose : isDelimiter close = true) (hcomma : close ≠ ',') {R : String → α → Prop} {depth : Nat}
    (hitem : ∀ text a, R text a → text.length ≤ depth → ReadsItem item close text.toList a) {texts : List String}
    {as : List α} (h : List.Forall₂ R texts as) (hdepth : (", ".intercalate texts).length ≤ depth) (rest : List Char) :
    readList item close ((", ".intercalate texts).toList ++ close :: rest) = some (as, rest) := by
  have hjoined : (", ".intercalate texts).toList = List.intercalate [',', ' '] (texts.map String.toList) :=
    String.toList_intercalate
  have hshort : ∀ text ∈ texts, text.length ≤ depth := by
    intro text ht
    rw [← String.length_toList, hjoined] at hdepth
    rw [← String.length_toList]
    exact (length_le_intercalate _ (List.mem_map_of_mem ht)).trans hdepth
  rw [hjoined]
  exact readList_intercalate hclose hcomma rest (forall₂_readsItem hitem h hshort)

end Lists

/-! ## Arrays -/

theorem Reads.item {text : String} {v : Datum} (h : Reads text v) {depth : Nat} (hdepth : text.length ≤ depth) :
    ReadsItem (readWithin depth) ']' text.toList v := by
  obtain ⟨c, cs, hcs, hc⟩ := h.head
  refine ⟨⟨c, cs, hcs, ?_⟩, fun rest hrest => h depth rest hdepth hrest⟩
  rintro rfl
  cases hc

theorem reads_array {texts : List String} {vs : List Datum} (h : List.Forall₂ Reads texts vs) :
    Reads ("[" ++ ", ".intercalate texts ++ "]") (.array vs) := by
  intro depth rest hdepth hrest
  have htext : ("[" ++ ", ".intercalate texts ++ "]").toList = '[' :: ((", ".intercalate texts).toList ++ [']']) := by
    simp [String.toList_append]
  rw [← String.length_toList, htext] at hdepth
  simp only [List.length_cons, List.length_append, List.length_nil, String.length_toList] at hdepth
  obtain ⟨d, rfl⟩ : ∃ d, depth = d + 1 := ⟨depth - 1, by omega⟩
  have hitems : readList (readWithin d) ']' ((", ".intercalate texts).toList ++ ']' :: rest) = some (vs, rest) :=
    readList_joined (by decide) (by decide) (fun _ _ h => h.item) h (by omega) rest
  rw [htext, List.cons_append, List.append_assoc, List.singleton_append, readWithin, hitems]
  rfl

/-! ## Keys -/

/-- A fixed key that is no string: it has no colon and does not begin with a mark. -/
def IsPlainKey (cs : List Char) : Prop := ':' ∉ cs ∧ ∃ c ds, cs = c :: ds ∧ c ≠ '"' ∧ c ≠ '\'' ∧ c ≠ '}'

theorem isPlainKey_of_word {cs : List Char} (h : WordToken cs) : IsPlainKey cs := by
  cases h with
  | @part c cs hc h =>
    refine ⟨List.not_mem_cons_of_ne_of_not_mem ?_ (colon_not_mem_wordTail h), c, cs, rfl, ?_, ?_, ?_⟩
    all_goals
      rintro rfl
      exact absurd hc (by decide)
  | @escape e cs he h =>
    refine ⟨List.not_mem_append (colon_not_mem_wordEscape he) (colon_not_mem_wordTail h), ?_⟩
    cases he with
    | four => exact ⟨'\\', _, rfl, by decide, by decide, by decide⟩
    | braces => exact ⟨'\\', _, rfl, by decide, by decide, by decide⟩

theorem isPlainKey_of_private {cs : List Char} (h : PrivateToken cs) : IsPlainKey cs := by
  cases h with
  | intro h =>
    refine ⟨List.not_mem_cons_of_ne_of_not_mem (by decide) (isPlainKey_of_word h).1, '#', _, rfl, ?_, ?_, ?_⟩
    all_goals decide

theorem isPlainKey_of_number {cs : List Char} (h : NumberToken cs) : IsPlainKey cs := by
  obtain ⟨c, ds, rfl, -⟩ := number_head h
  have hparts := isNumberPart_of_number h
  have hne : ∀ d, isNumberPart d = false → d ∉ c :: ds := fun d hd hm => by
    rw [hparts d hm] at hd
    cases hd
  refine ⟨hne _ rfl, c, ds, rfl, ?_, ?_, ?_⟩
  all_goals
    rintro rfl
    exact hne _ rfl List.mem_cons_self

section Strings

variable {quote : Char} (hq : quote = '"' ∨ quote = '\'')

theorem untilClosed_line {c : Char} (hc : isLineEnd c = true) (more : List Char) : ∀ body : List Char,
    (∀ x ∈ body, isLineEnd x = false) → untilClosed quote .lineComment (body ++ c :: more) =
      (untilClosed quote .gap more).map fun p => (body ++ c :: p.1, p.2)
  | [], _ => by
    rw [List.nil_append, untilClosed, if_pos hc]
    rfl
  | x :: body, h => by
    have ih := untilClosed_line hc more body fun y hy => h y (List.mem_cons_of_mem _ hy)
    rw [List.cons_append, untilClosed, h x List.mem_cons_self, if_neg (by decide), ih, Option.map_map]
    rfl

theorem untilClosed_block (more : List Char) : ∀ body : List Char, IsCommentBody body →
    untilClosed quote .blockComment (body ++ '*' :: '/' :: more) =
      (untilClosed quote .gap more).map fun p => (body ++ '*' :: '/' :: p.1, p.2)
  | [], _ => by
    rw [List.nil_append, untilClosed]
    rfl
  | x :: body, h => by
    have hbody : IsCommentBody body := fun hin => h (hin.trans (List.suffix_cons x _).isInfix)
    rw [List.cons_append, untilClosed, untilClosed_block more body hbody, Option.map_map]
    · rfl
    · -- the comment would have been closed before
      rintro cs rfl hcs
      cases body with
      | nil => cases hcs
      | cons y body =>
        obtain rfl : y = '/' := (List.cons.inj hcs).1
        exact h ⟨[], body ++ ['*'], rfl⟩

include hq

theorem untilClosed_gap {gap : List Char} (h : Gap gap) (rest : List Char) :
    untilClosed quote .gap (gap ++ quote :: rest) = some (gap, rest) := by
  have hslash : quote ≠ '/' := by rcases hq with rfl | rfl <;> decide
  induction h with
  | nil =>
    rw [List.nil_append, untilClosed, if_pos rfl]
    · exact fun _ e => absurd e hslash
    · exact fun _ e => absurd e hslash
  | @blank c cs hc _ ih =>
    have hquote : c ≠ quote := by
      rintro rfl
      rcases hq with rfl | rfl <;> exact absurd hc (by decide)
    have hstart : c ≠ '/' := by
      rintro rfl
      exact absurd hc (by decide)
    rw [List.cons_append, untilClosed, if_neg hquote, if_pos hc, ih]
    · rfl
    · exact fun _ e => absurd e hstart
    · exact fun _ e => absurd e hstart
  | @line body cs c hb hc _ ih =>
    rw [List.cons_append, List.cons_append, List.append_assoc, List.cons_append, untilClosed,
      untilClosed_line hc _ body hb, ih]
    rfl
  | @block body cs hb _ ih =>
    rw [List.cons_append, List.cons_append, List.append_assoc, List.cons_append, List.cons_append, untilClosed,
      untilClosed_block _ body hb, ih]
    rfl

omit hq in
theorem untilClosed_body {cs : List Char} (h : Body (IsStringChar quote) cs) (hcr : '\r' ∉ cs) (more : List Char) :
    untilClosed quote .body (cs ++ more) = (untilClosed quote .body more).map fun p => (cs ++ p.1, p.2) := by
  induction h with
  | nil => simp
  | @plain c cs hc _ ih =>
    have ih := ih fun h => hcr (List.mem_cons_of_mem _ h)
    rw [List.cons_append, untilClosed, if_neg hc.1, if_neg hc.2.2.1, ih, Option.map_map]
    · rfl
    · exact fun _ _ e => absurd e hc.2.1
  | @escape c cs _ ih =>
    have ih := ih fun h => hcr (by simp [h])
    rw [List.cons_append, List.cons_append, untilClosed, ih, Option.map_map]
    rfl
  | continuation => exact absurd (by simp) hcr

end Strings

theorem readKey_of_spelling {key : String} (h : StringSpelling key.toList) (hcr : '\r' ∉ key.toList)
    (rest : List Char) : readKey (key.toList ++ rest) = some (key, rest) := by
  generalize hk : key.toList = cs at h hcr
  obtain rfl : key = String.ofList cs := by rw [← hk, String.ofList_toList]
  cases h with
  | @intro quote body gap hq hb hg hline =>
    have hbody : '\r' ∉ body := fun h => hcr (by simp [h])
    have hclosed : untilClosed quote .body (body ++ (gap ++ quote :: rest)) = some (body ++ gap, rest) := by
      rw [untilClosed_body hb hbody]
      cases gap with
      | nil =>
        have hslash : quote ≠ '\\' := by rcases hq with rfl | rfl <;> decide
        rw [List.nil_append, untilClosed, if_pos rfl]
        · simp
        · exact fun _ _ e => absurd e hslash
      | cons c gap =>
        obtain rfl : c = '\n' := (hline c rfl).resolve_right fun e => hcr (by simp [e])
        have hquote : '\n' ≠ quote := by rcases hq with rfl | rfl <;> decide
        cases hg with
        | blank _ hg =>
          rw [List.cons_append, untilClosed, if_neg hquote, if_pos rfl, untilClosed_gap hq hg]
          · rfl
          · exact fun _ _ e => absurd e (by decide)
    rw [List.cons_append, readKey, if_pos hq, List.append_assoc, List.append_assoc, List.singleton_append, hclosed]
    rfl

theorem readKey_of_plain {key : String} (h : IsPlainKey key.toList) (rest : List Char) :
    readKey (key.toList ++ ':' :: rest) = some (key, ':' :: rest) := by
  obtain ⟨hcolon, c, ds, hcs, hdouble, hsingle, -⟩ := h
  have hinside : ∀ d ∈ key.toList, (d != ':') = true := fun d hd => bne_iff_ne.2 fun e => hcolon (e ▸ hd)
  have hafter : ∀ d ∈ (':' :: rest).head?, (d != ':') = false := by simp
  have hkey := takeWhile_append_ends hinside hafter
  rw [hcs, List.cons_append] at hkey ⊢
  rw [readKey, if_neg (by simp [hdouble, hsingle]), hkey.1, hkey.2, ← hcs, String.ofList_toList]

/-- Keys as they are written in trees: words, private names, numbers, and strings without carriage returns. -/
def IsKey (key : String) : Prop :=
  IsPlainKey key.toList ∨ (StringSpelling key.toList ∧ '\r' ∉ key.toList)

theorem readKey_of_isKey {key : String} (h : IsKey key) (rest : List Char) :
    readKey (key.toList ++ ':' :: rest) = some (key, ':' :: rest) := by
  rcases h with h | ⟨h, hcr⟩
  · exact readKey_of_plain h rest
  · exact readKey_of_spelling h hcr _

theorem IsKey.head {key : String} (h : IsKey key) : ∃ c cs, key.toList = c :: cs ∧ c ≠ '}' := by
  rcases h with ⟨-, c, ds, hcs, -, -, hc⟩ | ⟨h, -⟩
  · exact ⟨c, ds, hcs, hc⟩
  · generalize key.toList = cs at h
    cases h with
    | intro hq => exact ⟨_, _, rfl, by rcases hq with rfl | rfl <;> decide⟩

/-! ## Objects -/

/-- The text is a key, a colon and a text that is read as the value of the key. -/
def ReadsMember (text : String) (member : String × Datum) : Prop :=
  ∃ value, text = member.1 ++ ": " ++ value ∧ IsKey member.1 ∧ Reads value member.2

theorem ReadsMember.item {text : String} {member : String × Datum} (h : ReadsMember text member) {depth : Nat}
    (hdepth : text.length ≤ depth) : ReadsItem (readMember (readWithin depth)) '}' text.toList member := by
  obtain ⟨value, rfl, hkey, hvalue⟩ := h
  have htext : (member.1 ++ ": " ++ value).toList = member.1.toList ++ ':' :: ' ' :: value.toList := by
    simp [String.toList_append]
  rw [← String.length_toList, htext] at hdepth
  rw [htext]
  constructor
  · obtain ⟨c, cs, hcs, hc⟩ := hkey.head
    exact ⟨c, cs ++ ':' :: ' ' :: value.toList, by rw [hcs]; rfl, hc⟩
  · intro rest hrest
    have hlength : value.length ≤ depth := by
      rw [← String.length_toList]
      simp only [List.length_append, List.length_cons] at hdepth
      omega
    rw [List.append_assoc, List.cons_append, List.cons_append, readMember, readKey_of_isKey hkey]
    simp [hvalue depth rest hlength hrest]

theorem reads_object {texts : List String} {members : List (String × Datum)}
    (h : List.Forall₂ ReadsMember texts members) :
    Reads ("\x7b" ++ ", ".intercalate texts ++ "\x7d") (.object members) := by
  intro depth rest hdepth hrest
  have htext : ("\x7b" ++ ", ".intercalate texts ++ "\x7d").toList =
      '{' :: ((", ".intercalate texts).toList ++ ['}']) := by
    simp [String.toList_append]
  rw [← String.length_toList, htext] at hdepth
  simp only [List.length_cons, List.length_append, List.length_nil, String.length_toList] at hdepth
  obtain ⟨d, rfl⟩ : ∃ d, depth = d + 1 := ⟨depth - 1, by omega⟩
  have hitems : readList (readMember (readWithin d)) '}' ((", ".intercalate texts).toList ++ '}' :: rest) =
      some (members, rest) :=
    readList_joined (by decide) (by decide) (fun _ _ h => h.item) h (by omega) rest
  rw [htext, List.cons_append, List.append_assoc, List.singleton_append, readWithin, hitems]
  rfl

end ModuleMock.Literal
