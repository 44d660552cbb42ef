import ModuleMock.Json.Reader
import ModuleMock.Json.Writer
import ModuleMock.Proofs.Declaration.Bindings

/-!
# Reading written JSON back

Both writers put blanks only where the reader skips them, so one layout with parameters describes them (`Layout.text`,
`toList_compact`, `toList_indented`). A value without numbers whose objects have distinct keys is read back from its
text in any layout (`Layout.read_text`): first strings, character by character, then lists of items and of members, then
values.
-/

namespace ModuleMock

/-- Pairs with distinct keys are kept as they are. -/
theorem OrderedMap.ofList_of_nodup {κ α : Type} [DecidableEq κ] {pairs : List (κ × α)} (h : (keys pairs).Nodup) :
    ofList pairs = pairs := by
  have hput : ∀ (m : List (κ × α)) (k : κ) (a : α), k ∉ keys m → put m k a = m ++ [(k, a)] := by
    intro m k a hk
    induction m with
    | nil => rfl
    | cons p m ih =>
      rw [keys, List.map_cons, List.mem_cons, not_or] at hk
      rw [put, if_neg (Ne.symm hk.1), ih hk.2, List.cons_append]
  have hupdate : ∀ pairs m : List (κ × α), (keys (m ++ pairs)).Nodup → update m pairs = m ++ pairs := by
    intro pairs
    induction pairs with
    | nil => intro m _; simp [update]
    | cons p pairs ih =>
      intro m hm
      have hk : p.1 ∉ keys m := by
        simp only [keys, List.map_append, List.map_cons] at hm ⊢
        exact fun h => (List.nodup_append.1 hm).2.2 _ h _ List.mem_cons_self rfl
      have hnext : update m (p :: pairs) = update (put m p.1 p.2) pairs := rfl
      rw [hnext, hput m p.1 p.2 hk, ih (m ++ [p]) (by simpa using hm)]
      simp
  exact hupdate pairs [] h

namespace Json

open Text (CodePoint Str)

/-! ## Strings -/

section Strings

variable {start fuel index : Nat} {read : List CodePoint} {rest : List Char}

/-- The four digits of a control character are read as its number. -/
theorem hexUnit?_hexDigits {n : Nat} (hn : n < 0x20) (rest : List Char) :
    (hexDigits 4 n).length = 4 ∧ hexUnit? (hexDigits 4 n ++ rest) = some n := by
  have hall : ∀ n < 0x20, ∃ a b c d, hexDigits 4 n = [a, b, c, d] ∧ hexUnit? [a, b, c, d] = some n := by
    intro n hn
    have hsmall : (hexDigits 4 n).length = 4 ∧ hexUnit? (hexDigits 4 n) = some n := by
      revert n
      decide
    obtain ⟨a, b, c, d, h⟩ := List.length_eq_four.1 hsmall.1
    exact ⟨a, b, c, d, h, h ▸ hsmall.2⟩
  obtain ⟨a, b, c, d, h, hunit⟩ := hall n hn
  rw [h]
  exact ⟨rfl, hunit⟩

/-- A control character is read from its code unit. -/
theorem readString_unitEscape {c : Char} (hc : c.toNat < 0x20) (hrest : rest ≠ []) :
    readString start (fuel + 1) read ⟨unitEscape c.toNat ++ rest, index⟩ =
      readString start fuel (.char c :: read) ⟨rest, index + (unitEscape c.toNat).length⟩ := by
  obtain ⟨hlength, hunit⟩ := hexUnit?_hexDigits hc rest
  have hlong : ¬ (hexDigits 4 c.toNat ++ rest).length ≤ 4 := by
    have := List.length_pos_iff.2 hrest
    rw [List.length_append, hlength]
    omega
  have hhalf : ¬ 0xD800 ≤ c.toNat := by omega
  have hchar : CodePoint.ofUnit c.toNat = .char c := by
    rw [CodePoint.ofUnit, dif_neg (by omega), Char.ofNat_toNat]
  have hskip : Spot.skip 6 ⟨unitEscape c.toNat ++ rest, index⟩ = ⟨rest, index + (unitEscape c.toNat).length⟩ := by
    simp [Spot.skip, unitEscape, hlength]
  rw [← hskip]
  simp only [unitEscape, List.cons_append]
  simp only [readString, if_neg hlong, hunit, decide_eq_false hhalf, Bool.false_and, Bool.false_eq_true, if_false,
    hchar]

/-- Any other character that needs no escape stands for itself. -/
theorem readString_plain {c : Char} (hquote : c ≠ '"') (hslash : c ≠ '\\') (hc : ¬ c.toNat < 0x20) :
    readString start (fuel + 1) read ⟨c :: rest, index⟩ =
      readString start fuel (.char c :: read) ⟨rest, index + 1⟩ := by
  rw [readString.eq_def]
  simp [hslash, hc, Spot.skip]

/-- The text of a character is read as this character. -/
theorem readString_escapeChar (c : Char) (hrest : rest ≠ []) :
    readString start (fuel + 1) read ⟨escapeChar false c ++ rest, index⟩ =
      readString start fuel (.char c :: read) ⟨rest, index + (escapeChar false c).length⟩ := by
  unfold escapeChar
  split
  · simp [readString, simpleEscape?, Spot.skip]
  · simp [readString, simpleEscape?, Spot.skip]
  · simp [readString, simpleEscape?, Spot.skip]
  · simp [readString, simpleEscape?, Spot.skip]
  · simp [readString, simpleEscape?, Spot.skip]
  · simp [readString, simpleEscape?, Spot.skip]
  · simp [readString, simpleEscape?, Spot.skip]
  · rename_i hquote hslash _ _ _ _ _
    by_cases hc : c.toNat < 0x20
    · simpa [hc] using readString_unitEscape hc hrest
    · simpa [hc] using readString_plain hquote hslash hc

/-- What stands between the quotation marks of a text. -/
def quotedBody (cs : List Char) : List Char := cs.flatMap (escapeChar false)

/-- A text that is quoted is read up to its closing mark. -/
theorem readString_quotedBody (cs : List Char) (hfuel : cs.length < fuel) :
    readString start fuel read ⟨quotedBody cs ++ '"' :: rest, index⟩ =
      .ok (.ofPoints (read.reverse ++ cs.map .char), ⟨rest, index + (quotedBody cs).length + 1⟩) := by
  induction cs generalizing fuel read index with
  | nil =>
    obtain ⟨fuel, rfl⟩ : ∃ n, fuel = n + 1 := ⟨fuel - 1, by simp at hfuel; omega⟩
    simp [quotedBody, readString, Spot.skip]
  | cons c cs ih =>
    obtain ⟨fuel, rfl⟩ : ∃ n, fuel = n + 1 := ⟨fuel - 1, by simp at hfuel; omega⟩
    have hsplit : quotedBody (c :: cs) = escapeChar false c ++ quotedBody cs := rfl
    rw [hsplit, List.append_assoc, readString_escapeChar c (by simp), ih (by simpa using hfuel)]
    simp [Nat.add_assoc]

theorem length_escapeChar_pos (c : Char) : 0 < (escapeChar false c).length := by
  unfold escapeChar
  split <;> try exact Nat.succ_pos _
  dsimp only
  split <;> exact Nat.succ_pos _

/-- Quoting makes no text shorter. -/
theorem length_le_length_quotedBody (cs : List Char) : cs.length ≤ (quotedBody cs).length := by
  induction cs with
  | nil => exact Nat.zero_le _
  | cons c cs ih =>
    have := length_escapeChar_pos c
    simp only [quotedBody, List.flatMap_cons, List.length_cons, List.length_append] at ih ⊢
    omega

end Strings

/-! ## Blanks -/

/-- Only blanks, which the reader skips between the parts of a value. -/
def Blank (gap : List Char) : Prop := ∀ c ∈ gap, Spot.isBlank c = true

theorem blank_nil : Blank [] := fun _ h => absurd h List.not_mem_nil

theorem skipBlanks_append {gap : List Char} (hgap : Blank gap) {c : Char} (hc : Spot.isBlank c = false)
    (rest : List Char) (index : Nat) : Spot.skipBlanks ⟨gap ++ c :: rest, index⟩ = ⟨c :: rest, index + gap.length⟩ := by
  have htake : (gap ++ c :: rest).takeWhile Spot.isBlank = gap := by
    rw [List.takeWhile_append_of_pos hgap, List.takeWhile_cons_of_neg (by simp [hc]), List.append_nil]
  simp [Spot.skipBlanks, Spot.skip, htake]

theorem skipBlanks_cons {c : Char} (hc : Spot.isBlank c = false) (rest : List Char) (index : Nat) :
    Spot.skipBlanks ⟨c :: rest, index⟩ = ⟨c :: rest, index⟩ :=
  skipBlanks_append blank_nil hc rest index

/-! ## Plain values -/

/-- A value is read from a text, whatever follows. -/
structure Reads (v : Value) (cs : List Char) : Prop where
  head : ∃ c t, cs = c :: t ∧ Spot.isBlank c = false ∧ c ≠ ']' ∧ c.toNat ≠ 0xFEFF
  read : ∀ fuel index rest, cs.length < fuel →
    readValue fuel ⟨cs ++ rest, index⟩ = .ok (v, ⟨rest, index + cs.length⟩)

theorem toList_quoted (s : String) : (quoted false (.whole s)).toList = '"' :: (quotedBody s.toList ++ ['"']) := by
  simp [quoted, quotedBody]

/-- Whole texts are read as they were. -/
theorem reads_string (s : String) : Reads (.string (.whole s)) (quoted false (.whole s)).toList := by
  rw [toList_quoted]
  refine ⟨⟨'"', _, rfl, rfl, by decide, by decide⟩, fun fuel index rest hfuel => ?_⟩
  obtain ⟨fuel, rfl⟩ : ∃ n, fuel = n + 1 := ⟨fuel - 1, by omega⟩
  have hbody := length_le_length_quotedBody s.toList
  have hread : readString index (('"' :: (quotedBody s.toList ++ '"' :: rest)).length + 1) []
      ⟨quotedBody s.toList ++ '"' :: rest, index + 1⟩ =
      .ok (.whole s, ⟨rest, index + 1 + (quotedBody s.toList).length + 1⟩) := by
    rw [readString_quotedBody s.toList (by simp only [List.length_cons, List.length_append]; omega)]
    simp [Str.ofPoints_map_char]
  simp only [List.cons_append, List.append_assoc, List.nil_append, readValue, Spot.skip, List.drop_succ_cons,
    List.drop_zero, hread, bind, Except.bind, pure, Except.pure]
  simp
  omega

/-- A word is read by its letters. -/
theorem reads_word {v : Value} {c : Char} {t : List Char} (hc : c.isAlpha = true)
    (hword : ∀ rest, word? (c :: t ++ rest) = some (v, (c :: t).length)) : Reads v (c :: t) := by
  have hne : ∀ x, x.isAlpha = false → c ≠ x := fun x hx e => by rw [e, hx] at hc; cases hc
  have hblank : Spot.isBlank c = false := by
    simp [Spot.isBlank, hne ' ' rfl, hne '\t' rfl, hne '\n' rfl, hne '\r' rfl]
  have hmark : c.toNat ≠ 0xFEFF := by
    intro e
    have hc' := congrArg Char.ofNat e
    rw [Char.ofNat_toNat] at hc'
    exact hne _ rfl hc'
  refine ⟨⟨c, t, rfl, hblank, hne ']' rfl, hmark⟩, fun fuel index rest hfuel => ?_⟩
  obtain ⟨fuel, rfl⟩ : ∃ n, fuel = n + 1 := ⟨fuel - 1, by omega⟩
  have hword' : word? (c :: (t ++ rest)) = some (v, t.length + 1) := hword rest
  rw [List.cons_append, readValue.eq_def]
  dsimp only
  split
  · rename_i h
    exact absurd (List.cons.inj h).1 (hne _ rfl)
  · rename_i h
    exact absurd (List.cons.inj h).1 (hne _ rfl)
  · rename_i h
    exact absurd (List.cons.inj h).1 (hne _ rfl)
  · rw [hword']
    simp [Spot.skip]

theorem reads_null : Reads .null "null".toList := reads_word rfl fun _ => rfl

theorem reads_bool : ∀ b, Reads (.bool b) (compact false (.bool b)).toList
  | true => reads_word rfl fun _ => rfl
  | false => reads_word rfl fun _ => rfl

/-! ## Lists -/

section Lists

variable {gap close : List Char}

/-- Joined texts begin as the first of them does. -/
theorem intercalate_head (sep : List Char) {c : Char} {t : List Char} (texts : List (List Char)) :
    ∃ t', sep.intercalate ((c :: t) :: texts) = c :: t' := by
  cases texts with
  | nil => exact ⟨t, by simp⟩
  | cons next texts => exact ⟨t ++ sep ++ sep.intercalate (next :: texts), by simp [List.intercalate_cons_cons]⟩

/-- Items with commas between them are read one after another, whatever blanks there are. -/
theorem readItems_intercalate (hgap : Blank gap) (hclose : Blank close) {vs : List Value} {texts : List (List Char)}
    (h : List.Forall₂ Reads vs texts) (hne : texts ≠ []) (fuel index : Nat) (read : List Value) (rest : List Char)
    (hfuel : ((',' :: gap).intercalate texts).length + 1 < fuel) :
    readItems fuel read ⟨(',' :: gap).intercalate texts ++ (close ++ ']' :: rest), index⟩ =
      .ok (.array (read ++ vs), ⟨rest, index + ((',' :: gap).intercalate texts).length + close.length + 1⟩) := by
  induction h generalizing fuel index read with
  | nil => exact absurd rfl hne
  | @cons v text vs texts hv htexts ih =>
    obtain ⟨fuel, rfl⟩ : ∃ n, fuel = n + 1 := ⟨fuel - 1, by omega⟩
    cases htexts with
    | nil =>
      rw [List.intercalate_singleton] at hfuel ⊢
      rw [readItems, hv.read fuel index _ (by omega)]
      simp only [bind, Except.bind, skipBlanks_append hclose (c := ']') rfl, pure, Except.pure, Spot.skip]
      simp
    | @cons next nextText vs texts hnext htexts =>
      obtain ⟨c, t, rfl, hc, -⟩ := hnext.head
      obtain ⟨t', ht'⟩ := intercalate_head (',' :: gap) texts (c := c) (t := t)
      rw [List.intercalate_cons_cons] at hfuel
      simp only [List.length_append, List.length_cons] at hfuel
      have hmore := ih (by simp) fuel (index + text.length + 1 + gap.length) (read ++ [v]) (by omega)
      rw [ht', List.cons_append] at hmore
      rw [List.intercalate_cons_cons, ht']
      simp only [List.append_assoc, List.cons_append]
      rw [readItems, hv.read fuel index _ (by omega)]
      simp only [bind, Except.bind, skipBlanks_cons (c := ',') rfl, Spot.skip, List.drop_succ_cons, List.drop_zero,
        skipBlanks_append hgap hc, hmore]
      simp
      omega

variable {colon : List Char}

/-- The text of a member, with some blanks behind the colon. -/
def memberText (colon : List Char) (k : String) (cs : List Char) : List Char :=
  '"' :: (quotedBody k.toList ++ '"' :: ':' :: (colon ++ cs))

theorem length_memberText (colon : List Char) (k : String) (cs : List Char) :
    (memberText colon k cs).length = (quotedBody k.toList).length + colon.length + cs.length + 3 := by
  simp only [memberText, List.length_cons, List.length_append]
  omega

/-- A member with a whole name is read from a text. -/
def ReadsMember (colon : List Char) (m : Str × Value) (text : List Char) : Prop :=
  ∃ k cs, m.1 = .whole k ∧ text = memberText colon k cs ∧ Reads m.2 cs

theorem readString_memberText (k : String) (cs rest : List Char) (index : Nat) :
    readString index ((memberText colon k cs ++ rest).length + 1) []
        (Spot.skip 1 ⟨memberText colon k cs ++ rest, index⟩) =
      .ok (.whole k, ⟨':' :: (colon ++ (cs ++ rest)), index + (quotedBody k.toList).length + 2⟩) := by
  have hbody := length_le_length_quotedBody k.toList
  have hskip : Spot.skip 1 ⟨memberText colon k cs ++ rest, index⟩ =
      ⟨quotedBody k.toList ++ '"' :: ':' :: (colon ++ (cs ++ rest)), index + 1⟩ := by
    simp [Spot.skip, memberText]
  rw [hskip, readString_quotedBody k.toList (by rw [List.length_append, length_memberText]; omega)]
  simp [Str.ofPoints_map_char]
  omega

/-- Blanks before a value are skipped. -/
theorem Reads.behind {v : Value} {cs : List Char} (hv : Reads v cs) (hgap : Blank gap) {fuel : Nat}
    (hfuel : cs.length < fuel) (rest : List Char) (index : Nat) :
    readValue fuel (Spot.skipBlanks ⟨gap ++ (cs ++ rest), index⟩) =
      .ok (v, ⟨rest, index + gap.length + cs.length⟩) := by
  obtain ⟨c, t, hcs, hc, -⟩ := hv.head
  have hskip : Spot.skipBlanks ⟨gap ++ (cs ++ rest), index⟩ = ⟨cs ++ rest, index + gap.length⟩ := by
    rw [hcs]
    exact skipBlanks_append hgap hc (t ++ rest) index
  rw [hskip, hv.read fuel _ rest hfuel]

/-- Reading members goes on behind the first of them. -/
theorem readMembers_memberText (hcolon : Blank colon) {k : String} {v : Value} {cs : List Char} (hv : Reads v cs)
    {fuel : Nat} (hfuel : cs.length < fuel) (index : Nat) (read : List (Str × Value)) (hclose : Blank close)
    (rest : List Char) :
    readMembers (fuel + 1) read ⟨memberText colon k cs ++ (close ++ '\x7d' :: rest), index⟩ =
        .ok (.object (OrderedMap.ofList (read ++ [(.whole k, v)])),
          ⟨rest, index + (memberText colon k cs).length + close.length + 1⟩) ∧
      readMembers (fuel + 1) read ⟨memberText colon k cs ++ ',' :: rest, index⟩ =
        readMembers fuel (read ++ [(.whole k, v)]) (Spot.skipBlanks ⟨rest, index + (memberText colon k cs).length + 1⟩) := by
  have hlength : index + (quotedBody k.toList).length + 2 + 1 + colon.length + cs.length =
      index + (memberText colon k cs).length := by
    rw [length_memberText]
    omega
  constructor
  · rw [readMembers.eq_def]
    dsimp only
    split
    · rw [readString_memberText]
      simp only [bind, Except.bind, skipBlanks_cons (c := ':') rfl, List.head?_cons, bne_self_eq_false,
        Bool.false_eq_true, if_false, Spot.skip, List.drop_succ_cons, List.drop_zero, hv.behind hcolon hfuel, hlength,
        skipBlanks_append hclose (c := '\x7d') rfl, pure, Except.pure]
    · rename_i h
      exact absurd rfl (h _)
  · rw [readMembers.eq_def]
    dsimp only
    split
    · rw [readString_memberText]
      simp only [bind, Except.bind, skipBlanks_cons (c := ':') rfl, List.head?_cons, bne_self_eq_false,
        Bool.false_eq_true, if_false, Spot.skip, List.drop_succ_cons, List.drop_zero, hv.behind hcolon hfuel, hlength,
        skipBlanks_cons (c := ',') rfl]
    · rename_i h
      exact absurd rfl (h _)

/-- So are members. -/
theorem readMembers_intercalate (hgap : Blank gap) (hclose : Blank close) (hcolon : Blank colon)
    {ms : List (Str × Value)} {texts : List (List Char)} (h : List.Forall₂ (ReadsMember colon) ms texts)
    (hne : texts ≠ []) (fuel index : Nat) (read : List (Str × Value)) (rest : List Char)
    (hfuel : ((',' :: gap).intercalate texts).length + 1 < fuel) :
    readMembers fuel read ⟨(',' :: gap).intercalate texts ++ (close ++ '\x7d' :: rest), index⟩ =
      .ok (.object (OrderedMap.ofList (read ++ ms)),
        ⟨rest, index + ((',' :: gap).intercalate texts).length + close.length + 1⟩) := by
  induction h generalizing fuel index read with
  | nil => exact absurd rfl hne
  | @cons m text ms texts hm htexts ih =>
    obtain ⟨fuel, rfl⟩ : ∃ n, fuel = n + 1 := ⟨fuel - 1, by omega⟩
    obtain ⟨name, v⟩ := m
    obtain ⟨k, cs, rfl, rfl, hv⟩ := hm
    cases htexts with
    | nil =>
      rw [List.intercalate_singleton, length_memberText] at hfuel
      rw [List.intercalate_singleton]
      exact (readMembers_memberText hcolon hv (by omega) index read hclose rest).1
    | @cons next nextText ms texts hnext htexts =>
      rw [List.intercalate_cons_cons] at hfuel
      simp only [List.length_append, List.length_cons, length_memberText] at hfuel
      obtain ⟨t', ht'⟩ : ∃ t', (',' :: gap).intercalate (nextText :: texts) = '"' :: t' := by
        obtain ⟨k', cs', -, rfl, -⟩ := hnext
        exact intercalate_head _ _
      have hmore := ih (by simp) fuel (index + (memberText colon k cs).length + 1 + gap.length)
        (read ++ [(.whole k, v)]) (by omega)
      rw [ht', List.cons_append] at hmore
      rw [List.intercalate_cons_cons, ht']
      simp only [List.append_assoc, List.cons_append]
      rw [(readMembers_memberText hcolon hv (by omega) index read hclose _).2, skipBlanks_append hgap rfl, hmore]
      simp
      omega

end Lists

/-! ## Brackets -/

theorem readValue_bracket {gap : List Char} (hgap : Blank gap) {c : Char} (hc : Spot.isBlank c = false) (hne : c ≠ ']')
    (fuel index : Nat) (cs : List Char) :
    readValue (fuel + 1) ⟨'[' :: (gap ++ c :: cs), index⟩ = readItems fuel [] ⟨c :: cs, index + 1 + gap.length⟩ := by
  simp only [readValue, Spot.skip, List.drop_succ_cons, List.drop_zero, skipBlanks_append hgap hc]
  split
  · rename_i h
    exact absurd (List.cons.inj h).1 hne
  · rfl

theorem readValue_brace {gap : List Char} (hgap : Blank gap) (fuel index : Nat) (cs : List Char) :
    readValue (fuel + 1) ⟨'{' :: (gap ++ '"' :: cs), index⟩ =
      readMembers fuel [] ⟨'"' :: cs, index + 1 + gap.length⟩ := by
  simp [readValue, Spot.skip, skipBlanks_append hgap (c := '"') rfl]

/-! ## Layouts -/

/-- Where blanks stand in a text: behind an opening bracket and each comma at a depth, before the closing bracket at the
depth above, and behind the colons of members. -/
structure Layout where
  gap : Nat → List Char
  colon : List Char
  blank_gap : ∀ n, Blank (gap n)
  blank_colon : Blank colon

namespace Layout

/-- No blanks at all. -/
def dense : Layout := ⟨fun _ => [], [], fun _ => blank_nil, blank_nil⟩

/-- A line for each item and member, two blanks a level. -/
def spread : Layout where
  gap n := '\n' :: List.replicate (2 * n) ' '
  colon := [' ']
  blank_gap n c hc := by
    rcases List.mem_cons.1 hc with rfl | hc
    · rfl
    · rw [List.eq_of_mem_replicate hc]
      rfl
  blank_colon c hc := by
    rw [List.mem_singleton.1 hc]
    rfl

variable (L : Layout)

/-- Texts between brackets, which stand at the given depth. -/
def bracketed (n : Nat) (left right : Char) (texts : List (List Char)) : List Char :=
  if texts.isEmpty then [left, right]
  else left :: (L.gap (n + 1) ++ ((',' :: L.gap (n + 1)).intercalate texts ++ (L.gap n ++ [right])))

mutual

/-- The text of a value at a depth. -/
def text (n : Nat) : Value → List Char
  | .array items => L.bracketed n '[' ']' (itemTexts (n + 1) items)
  | .object members => L.bracketed n '{' '}' (memberTexts (n + 1) members)
  | v => (compact false v).toList

def itemTexts (n : Nat) : List Value → List (List Char)
  | [] => []
  | v :: vs => text n v :: itemTexts n vs

def memberTexts (n : Nat) : List (Str × Value) → List (List Char)
  | [] => []
  | (k, v) :: ms => ((quoted false k).toList ++ ':' :: (L.colon ++ text n v)) :: memberTexts n ms

end

variable {L} {texts : List (List Char)}

theorem bracketed_of_ne_nil (hne : texts ≠ []) (n : Nat) (left right : Char) :
    L.bracketed n left right texts =
      left :: (L.gap (n + 1) ++ ((',' :: L.gap (n + 1)).intercalate texts ++ (L.gap n ++ [right]))) := by
  rw [bracketed, if_neg (by simpa using hne)]

/-- An array is read as it was if its items are. -/
theorem reads_array {vs : List Value} (h : List.Forall₂ Reads vs texts) (n : Nat) :
    Reads (.array vs) (L.bracketed n '[' ']' texts) := by
  cases h with
  | nil =>
    refine ⟨⟨'[', _, rfl, rfl, by decide, by decide⟩, fun fuel index rest hfuel => ?_⟩
    obtain ⟨fuel, rfl⟩ : ∃ n, fuel = n + 1 := ⟨fuel - 1, by omega⟩
    simp [bracketed, readValue, Spot.skip, skipBlanks_cons (c := ']') rfl]
  | @cons v text vs texts hv htexts =>
    rw [bracketed_of_ne_nil (by simp)]
    refine ⟨⟨'[', _, rfl, rfl, by decide, by decide⟩, fun fuel index rest hfuel => ?_⟩
    obtain ⟨fuel, rfl⟩ : ∃ n, fuel = n + 1 := ⟨fuel - 1, by omega⟩
    simp only [List.length_cons, List.length_append, List.length_nil] at hfuel
    have hitems := readItems_intercalate (L.blank_gap (n + 1)) (L.blank_gap n) (.cons hv htexts) (by simp) fuel
      (index + 1 + (L.gap (n + 1)).length) [] rest (by omega)
    obtain ⟨c, t, rfl, hc, hne, -⟩ := hv.head
    obtain ⟨t', ht'⟩ := intercalate_head (',' :: L.gap (n + 1)) texts (c := c) (t := t)
    rw [ht'] at hitems ⊢
    simp only [List.cons_append, List.append_assoc, List.nil_append] at hitems ⊢
    rw [readValue_bracket (L.blank_gap (n + 1)) hc hne, hitems]
    simp
    omega

/-- An object with distinct keys is read as it was if its members are. -/
theorem reads_object {ms : List (Str × Value)} (hkeys : (OrderedMap.keys ms).Nodup)
    (h : List.Forall₂ (ReadsMember L.colon) ms texts) (n : Nat) : Reads (.object ms) (L.bracketed n '{' '}' texts) := by
  cases h with
  | nil =>
    refine ⟨⟨'{', _, rfl, rfl, by decide, by decide⟩, fun fuel index rest hfuel => ?_⟩
    obtain ⟨fuel, rfl⟩ : ∃ n, fuel = n + 1 := ⟨fuel - 1, by omega⟩
    simp [bracketed, readValue, Spot.skip, skipBlanks_cons (c := '}') rfl]
  | @cons m text ms texts hm htexts =>
    rw [bracketed_of_ne_nil (by simp)]
    refine ⟨⟨'{', _, rfl, rfl, by decide, by decide⟩, fun fuel index rest hfuel => ?_⟩
    obtain ⟨fuel, rfl⟩ : ∃ n, fuel = n + 1 := ⟨fuel - 1, by omega⟩
    simp only [List.length_cons, List.length_append, List.length_nil] at hfuel
    have hmembers := readMembers_intercalate (L.blank_gap (n + 1)) (L.blank_gap n) L.blank_colon (.cons hm htexts)
      (by simp) fuel (index + 1 + (L.gap (n + 1)).length) [] rest (by omega)
    obtain ⟨t', ht'⟩ : ∃ t', (',' :: L.gap (n + 1)).intercalate (text :: texts) = '"' :: t' := by
      obtain ⟨k, cs, -, rfl, -⟩ := hm
      exact intercalate_head _ _
    rw [ht'] at hmembers ⊢
    simp only [List.cons_append, List.append_assoc, List.nil_append] at hmembers ⊢
    rw [readValue_brace (L.blank_gap (n + 1)), hmembers, OrderedMap.ofList_of_nodup hkeys]
    simp
    omega

end Layout

/-! ## Values -/

mutual

/-- A value without numbers and halves of surrogate pairs, in whose objects all keys are distinct. -/
def Clean : Value → Prop
  | .null => True
  | .bool _ => True
  | .integer _ => False
  | .float _ => False
  | .string s => s.isWhole
  | .array items => CleanItems items
  | .object members => (OrderedMap.keys members).Nodup ∧ CleanMembers members

def CleanItems : List Value → Prop
  | [] => True
  | v :: vs => Clean v ∧ CleanItems vs

def CleanMembers : List (Str × Value) → Prop
  | [] => True
  | (k, v) :: ms => k.isWhole ∧ Clean v ∧ CleanMembers ms

end

namespace Layout

variable (L : Layout)

mutual

/-- Every clean value is read as it was, in every layout. -/
theorem reads_text (n : Nat) : ∀ v : Value, Clean v → Reads v (L.text n v)
  | .null, _ => reads_null
  | .bool b, _ => reads_bool b
  | .integer _, h => h.elim
  | .float _, h => h.elim
  | .string (.whole s), _ => reads_string s
  | .array items, h => reads_array (reads_itemTexts (n + 1) items h) n
  | .object members, h => reads_object h.1 (reads_memberTexts (n + 1) members h.2) n

theorem reads_itemTexts (n : Nat) : ∀ vs : List Value, CleanItems vs → List.Forall₂ Reads vs (L.itemTexts n vs)
  | [], _ => .nil
  | v :: vs, h => .cons (reads_text n v h.1) (reads_itemTexts n vs h.2)

theorem reads_memberTexts (n : Nat) : ∀ ms : List (Str × Value), CleanMembers ms →
    List.Forall₂ (ReadsMember L.colon) ms (L.memberTexts n ms)
  | [], _ => .nil
  | (.whole k, v) :: ms, h =>
    .cons ⟨k, L.text n v, rfl, by simp [toList_quoted, memberText], reads_text n v h.2.1⟩ (reads_memberTexts n ms h.2.2)

end

theorem read_text {v : Value} (hv : Clean v) : read (String.ofList (L.text 0 v)) = .ok v := by
  have hreads := L.reads_text 0 v hv
  obtain ⟨c, t, hcs, hc, -, hmark⟩ := hreads.head
  have hread := hreads.read ((L.text 0 v).length + 2) 0 [] (by omega)
  rw [List.append_nil] at hread
  rw [hcs] at hread ⊢
  have hend : Spot.skipBlanks ⟨[], 0 + (c :: t).length⟩ = ⟨[], 0 + (c :: t).length⟩ := rfl
  simp only [read, String.toList_ofList, List.head?_cons, Option.map_some, skipBlanks_cons hc, hread, bind, Except.bind,
    hend, List.isEmpty_nil, if_true, pure, Except.pure]
  simp [hmark]

end Layout

/-! ## The two writers -/

section Writers

variable {texts : List (List Char)}

theorem bracketed_dense (n : Nat) (left right : Char) :
    Layout.dense.bracketed n left right texts = left :: ([','].intercalate texts ++ [right]) := by
  cases texts with
  | nil => rfl
  | cons text texts => rw [Layout.bracketed_of_ne_nil (by simp)]; rfl

mutual

/-- The compact text is the dense layout. -/
theorem toList_compact (n : Nat) : ∀ v : Value, (compact false v).toList = Layout.dense.text n v
  | .null => rfl
  | .bool _ => rfl
  | .integer _ => rfl
  | .float _ => rfl
  | .string _ => rfl
  | .array items => by
    rw [Layout.text, bracketed_dense, ← toList_compactItems (n + 1) items]
    simp [compact, String.toList_append, String.toList_intercalate]
  | .object members => by
    rw [Layout.text, bracketed_dense, ← toList_compactMembers (n + 1) members]
    simp [compact, String.toList_append, String.toList_intercalate]

theorem toList_compactItems (n : Nat) : ∀ vs : List Value,
    (compactItems false vs).map String.toList = Layout.dense.itemTexts n vs
  | [] => rfl
  | v :: vs => by rw [compactItems, List.map_cons, toList_compact n v, toList_compactItems n vs, Layout.itemTexts]

theorem toList_compactMembers (n : Nat) : ∀ ms : List (Str × Value),
    (compactMembers false ms).map String.toList = Layout.dense.memberTexts n ms
  | [] => rfl
  | (k, v) :: ms => by
    rw [compactMembers, List.map_cons, toList_compactMembers n ms, Layout.memberTexts, ← toList_compact n v]
    simp [String.toList_append, Layout.dense]

end

/-- What each of the joined texts begins with can be moved to the separator. -/
theorem intercalate_map_append (sep blanks : List Char) (hne : texts ≠ []) :
    sep.intercalate (texts.map (blanks ++ ·)) = blanks ++ (sep ++ blanks).intercalate texts := by
  induction texts with
  | nil => exact absurd rfl hne
  | cons text texts ih =>
    cases texts with
    | nil => simp
    | cons next texts =>
      have hmore := ih (by simp)
      rw [List.map_cons] at hmore ⊢
      rw [List.map_cons, List.intercalate_cons_cons, List.intercalate_cons_cons, hmore]
      simp

theorem toList_bracketed {indent : String} {n : Nat} (hindent : indent.toList = List.replicate (2 * n) ' ')
    {left right : String} {l r : Char} (hl : left.toList = [l]) (hr : right.toList = [r]) {lines : List String}
    (hlines : lines.map String.toList = texts.map (List.replicate (2 * (n + 1)) ' ' ++ ·)) :
    (bracketed left right indent lines).toList = Layout.spread.bracketed n l r texts := by
  cases texts with
  | nil =>
    obtain rfl : lines = [] := List.map_eq_nil_iff.1 hlines
    simp [bracketed, Layout.bracketed, String.toList_append, hl, hr]
  | cons text texts =>
    have hne : lines.isEmpty = false := by
      cases lines with
      | nil => cases hlines
      | cons _ _ => rfl
    have hjoined : (",\n".intercalate lines).toList = [',', '\n'].intercalate (lines.map String.toList) :=
      String.toList_intercalate
    rw [bracketed, hne, Layout.bracketed_of_ne_nil (by simp)]
    simp only [Bool.false_eq_true, if_false, String.toList_append, hjoined, hlines, hl, hr, hindent]
    rw [intercalate_map_append _ _ (by simp)]
    simp [Layout.spread]

theorem toList_deeper {indent : String} {n : Nat} (hindent : indent.toList = List.replicate (2 * n) ' ') :
    (indent ++ "  ").toList = List.replicate (2 * (n + 1)) ' ' := by
  rw [String.toList_append, hindent, Nat.mul_add, List.replicate_add]
  rfl

mutual

/-- The indented text is the layout with two blanks for each level. -/
theorem toList_indented {indent : String} {n : Nat} (hindent : indent.toList = List.replicate (2 * n) ' ') :
    ∀ v : Value, (indented indent v).toList = Layout.spread.text n v
  | .null => rfl
  | .bool _ => rfl
  | .integer _ => rfl
  | .float _ => rfl
  | .string _ => rfl
  | .array items => by
    rw [indented, Layout.text]
    exact toList_bracketed hindent rfl rfl (toList_indentedItems (toList_deeper hindent) items)
  | .object members => by
    rw [indented, Layout.text]
    exact toList_bracketed hindent rfl rfl (toList_indentedMembers (toList_deeper hindent) members)

theorem toList_indentedItems {indent : String} {n : Nat} (hindent : indent.toList = List.replicate (2 * n) ' ') :
    ∀ vs : List Value, (indentedItems indent vs).map String.toList =
      (Layout.spread.itemTexts n vs).map (List.replicate (2 * n) ' ' ++ ·)
  | [] => rfl
  | v :: vs => by
    rw [indentedItems, List.map_cons, toList_indentedItems hindent vs, Layout.itemTexts, List.map_cons,
      String.toList_append, hindent, toList_indented hindent v]

theorem toList_indentedMembers {indent : String} {n : Nat} (hindent : indent.toList = List.replicate (2 * n) ' ') :
    ∀ ms : List (Str × Value), (indentedMembers indent ms).map String.toList =
      (Layout.spread.memberTexts n ms).map (List.replicate (2 * n) ' ' ++ ·)
  | [] => rfl
  | (k, v) :: ms => by
    rw [indentedMembers, List.map_cons, toList_indentedMembers hindent ms, Layout.memberTexts, List.map_cons,
      ← toList_indented hindent v]
    simp [String.toList_append, Layout.spread, hindent]

end

/-- The text of a value in one of the two forms in which it is written. -/
inductive WrittenAs (v : Value) : String → Prop
  | oneLine : WrittenAs v (compact false v)
  | manyLines : WrittenAs v (indented "" v)

/-- A value that is written, in either form, is read back. -/
theorem WrittenAs.read {v : Value} {text : String} (h : WrittenAs v text) (hv : Clean v) : Json.read text = .ok v := by
  cases h with
  | oneLine =>
    rw [← String.ofList_toList (s := compact false v), toList_compact 0]
    exact Layout.dense.read_text hv
  | manyLines =>
    rw [← String.ofList_toList (s := indented "" v), toList_indented (n := 0) rfl]
    exact Layout.spread.read_text hv

end Writers

end Json

end ModuleMock
