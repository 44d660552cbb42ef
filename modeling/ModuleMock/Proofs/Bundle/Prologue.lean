import Mathlib.Data.List.Infix
import ModuleMock.Bundle.Assemble
import ModuleMock.Proofs.Literal.StringValue
import ModuleMock.Script.Token

/-!
# Where the mount object is created

The mount object is created after the first `use strict` in a text, wherever that stands. It should stand in the
prologue of the script: behind blanks, comments and other directives alone (`Prologue`). Where a piece of the prologue
ends, no `use strict` can go on (`Piece.passes`). So the mount object is created in the prologue exactly if there is no
`use strict` at all, or one of the directives is the first (`assemble_in_prologue_iff`).
-/

namespace ModuleMock.Bundle

open Script Literal

def IsMark (q : Char) : Prop := q = '"' ∨ q = '\''

/-- The directive, in marks of one kind. -/
def strictText (q : Char) : List Char := q :: ("use strict".toList ++ [q])

/-- There is no `use strict` in the text. -/
def StrictFree (cs : List Char) : Prop := ∀ q, IsMark q → ¬ strictText q <:+: cs

/-- Any text is inserted at this place. -/
structure InsertsAt (code before after : List Char) : Prop where
  split : code = before ++ after
  inserted : ∀ text, insertAfterDirective text code = before ++ (text ++ after)

/-- The statement that creates the mount object, on a line of its own. -/
def creation (mount : String) : List Char := s!"\nwindow.{mount} = Object.create(null);".toList

/-- What is done to a text after the mount object has been created: export lists go, and named exports are mounted. -/
def finished (mount : String) (names : List String) (created : List Char) : String :=
  let kept := dropExportLists created.length true created
  let named := names.filter (· ≠ "default")
  if named.isEmpty then String.ofList kept
  else
    let ended := if kept.getLast? = some '\n' then kept else kept ++ ['\n']
    String.ofList ended ++ mountStatement mount named

/-! ## Prologues -/

/-- A blank or a comment, before the rest of a script. Comments behind `-->` are left out: they need the start of a
line. -/
inductive Spacing : List Char → List Char → Prop
  | blank {c : Char} {rest : List Char} (h : isBlank c = true) : Spacing [c] rest
  | line {mark text rest : List Char} (hmark : mark = ['/', '/'] ∨ mark = ['<', '!', '-', '-'])
      (htext : ∀ c ∈ text, isLineEnd c = false) (hrest : ∀ c ∈ rest.head?, isLineEnd c = true) :
      Spacing (mark ++ text) rest
  | block {text rest : List Char} (h : ¬ ['*', '/'] <:+: text) : Spacing ('/' :: '*' :: (text ++ ['*', '/'])) rest

/-- Every text stands in the relation to all that comes after it. -/
inductive Each (R : List Char → List Char → Prop) : List (List Char) → List Char → Prop
  | nil {rest : List Char} : Each R [] rest
  | cons {p : List Char} {ps : List (List Char)} {rest : List Char} (h : R p (ps.flatten ++ rest)) (hs : Each R ps rest) :
      Each R (p :: ps) rest

/-- A statement ends: with a semicolon, at the end of the script, or at the end of a line unless the next token continues
it. The first text still belongs to the statement, the second does not. -/
inductive Ends : List Char → List Char → Prop
  | semicolon {ss : List (List Char)} {rest : List Char} (h : Each Spacing ss (';' :: rest)) :
      Ends (ss.flatten ++ [';']) rest
  | script {ss : List (List Char)} (h : Each Spacing ss []) : Ends [] ss.flatten
  | line {ss : List (List Char)} {next : List Char} (h : Each Spacing ss next)
      (hline : ∃ c ∈ ss.flatten, isLineEnd c = true) (hnext : ∀ s rest, next = s ++ rest → ¬ Spacing s rest)
      (hnew : startsAnew .statement false next = true) : Ends [] (ss.flatten ++ next)

/-- A blank, a comment or a directive, before the rest of a script. -/
inductive Piece : List Char → List Char → Prop
  | spacing {s rest : List Char} (h : Spacing s rest) : Piece s rest
  | directive {q : Char} {body stop rest : List Char} (hq : IsMark q) (hbody : isBody q body = true)
      (hstop : Ends stop rest) : Piece (q :: (body ++ q :: stop)) rest

/-- The pieces at the start of a script. Its first line may name an interpreter. -/
inductive Prologue : List (List Char) → List Char → Prop
  | plain {ps : List (List Char)} {rest : List Char} (h : Each Piece ps rest) : Prologue ps rest
  | interpreter {text : List Char} {ps : List (List Char)} {rest : List Char} (htext : ∀ c ∈ text, isLineEnd c = false)
      (hrest : ∀ c ∈ (ps.flatten ++ rest).head?, isLineEnd c = true) (h : Each Piece ps rest) :
      Prologue (('#' :: '!' :: text) :: ps) rest

/-- Blanks on one line, and a semicolon after them or not. -/
def IsTail (tail : List Char) : Prop :=
  ∃ blanks : List Char, (∀ c ∈ blanks, c = ' ' ∨ c = '\t') ∧ (tail = blanks ∨ tail = blanks ++ [';'])

/-- The place is behind a prologue and a `use strict` that is a directive. -/
def BehindDirective (before after : List Char) : Prop :=
  ∃ ps q tail, IsMark q ∧ IsTail tail ∧ before = ps.flatten ++ (strictText q ++ tail) ∧
    Prologue ps (strictText q ++ (tail ++ after)) ∧ ∃ stop rest, tail ++ after = stop ++ rest ∧ Ends stop rest

/-! ## The first `use strict` -/

@[simp] theorem length_strictText (q : Char) : (strictText q).length = 12 := rfl

/-- How much of the text after the marks is taken with them. -/
def tailLength (rest : List Char) : Nat :=
  (rest.takeWhile fun c => c = ' ' ∨ c = '\t').length +
    if (rest.drop (rest.takeWhile fun c => c = ' ' ∨ c = '\t').length).head? = some ';' then 1 else 0

theorem take_eq_strictText {q : Char} {cs : List Char} : cs.take 12 = strictText q ↔ strictText q <+: cs := by
  rw [List.prefix_iff_eq_take, length_strictText, eq_comm]

/-- Text that does not begin with the directive has no length for it. -/
theorem directiveLength?_eq_none {cs : List Char} (h : ∀ q, IsMark q → ¬ strictText q <+: cs) :
    directiveLength? cs = none := by
  have hdouble : cs.take 12 ≠ strictText '"' := fun htake => h _ (.inl rfl) (take_eq_strictText.1 htake)
  have hsingle : cs.take 12 ≠ strictText '\'' := fun htake => h _ (.inr rfl) (take_eq_strictText.1 htake)
  unfold directiveLength?
  refine if_neg ?_
  rw [Bool.or_eq_true, decide_eq_true_eq, decide_eq_true_eq]
  exact not_or.2 ⟨hdouble, hsingle⟩

/-- The directive and its tail are found whole. -/
theorem directiveLength?_strictText {q : Char} (hq : IsMark q) (rest : List Char) :
    directiveLength? (strictText q ++ rest) = some (12 + tailLength rest) := by
  have htake : (strictText q ++ rest).take 12 = strictText q := List.take_left' (length_strictText q)
  have hdrop : (strictText q ++ rest).drop 12 = rest := List.drop_left' (length_strictText q)
  unfold directiveLength?
  refine (if_pos ?_).trans ?_
  · rw [Bool.or_eq_true, decide_eq_true_eq, decide_eq_true_eq, htake]
    rcases hq with rfl | rfl
    · exact .inl rfl
    · exact .inr rfl
  · rw [hdrop]
    dsimp only
    rw [Nat.add_assoc]
    rfl

/-- What is counted as the tail is one. -/
theorem isTail_take (rest : List Char) : IsTail (rest.take (tailLength rest)) := by
  unfold tailLength
  generalize hblanks : rest.takeWhile (fun c => decide (c = ' ' ∨ c = '\t')) = blanks
  have hall : ∀ c ∈ blanks, c = ' ' ∨ c = '\t' := by
    intro c hc
    rw [← hblanks] at hc
    simpa using List.mem_takeWhile_imp hc
  obtain ⟨after, rfl⟩ : blanks <+: rest := hblanks ▸ List.takeWhile_prefix _
  refine ⟨blanks, hall, ?_⟩
  rw [List.drop_left]
  split
  · rename_i hhead
    obtain ⟨after, rfl⟩ := List.head?_eq_some_iff.1 hhead
    right
    rw [List.take_length_add_append]
    rfl
  · exact .inl List.take_left

/-- The text is inserted after a `use strict` that stands at the start. -/
theorem insertAfterDirective_strictText {q : Char} (hq : IsMark q) (rest : List Char) :
    ∃ tail after, IsTail tail ∧ rest = tail ++ after ∧
      ∀ text, insertAfterDirective text (strictText q ++ rest) = strictText q ++ (tail ++ (text ++ after)) := by
  refine ⟨rest.take (tailLength rest), rest.drop (tailLength rest), isTail_take rest, by simp, fun text => ?_⟩
  have hlength := directiveLength?_strictText hq rest
  have hstart : strictText q ++ rest = q :: ("use strict".toList ++ [q] ++ rest) := rfl
  rw [hstart] at hlength ⊢
  rw [insertAfterDirective, hlength]
  dsimp only
  rw [← hstart, ← length_strictText q, List.take_length_add_append, List.drop_length_add_append]
  simp

/-- No `use strict` begins in the text, given what comes after it. -/
def Passes (before rest : List Char) : Prop :=
  ∀ y, y <:+ before → y ≠ [] → ∀ q, IsMark q → ¬ strictText q <+: y ++ rest

theorem Passes.insertAfterDirective_append {before rest : List Char} (h : Passes before rest) (text : List Char) :
    insertAfterDirective text (before ++ rest) = before ++ insertAfterDirective text rest := by
  induction before with
  | nil => rfl
  | cons c before ih =>
    have hnone := directiveLength?_eq_none (h (c :: before) (List.suffix_refl _) (List.cons_ne_nil _ _))
    have htail : Passes before rest := fun y hy => h y (hy.trans (List.suffix_cons c before))
    rw [List.cons_append] at hnone ⊢
    rw [insertAfterDirective, hnone]
    exact congrArg (c :: ·) (ih htail)

/-- Code without the directive is passed as a whole. -/
theorem StrictFree.passes {code : List Char} (h : StrictFree code) : Passes code [] := by
  intro y hy _ q hq hstart
  rw [List.append_nil] at hstart
  exact h q hq (hstart.isInfix.trans hy.isInfix)

theorem Passes.free {before rest : List Char} (h : Passes before rest) : StrictFree before := by
  rintro q hq ⟨x, y, rfl⟩
  refine h (strictText q ++ y) ⟨x, by simp⟩ (by simp [strictText]) q hq ?_
  exact ⟨y ++ rest, by simp⟩

/-- A text without `use strict` stays as it is. -/
theorem StrictFree.insertAfterDirective_eq {code : List Char} (h : StrictFree code) (text : List Char) :
    insertAfterDirective text code = code := by
  have happend := h.passes.insertAfterDirective_append text
  rwa [List.append_nil, show insertAfterDirective text [] = [] from rfl, List.append_nil] at happend

/-- If there is a `use strict`, there is a first one. -/
theorem exists_first {code : List Char} (h : ¬ StrictFree code) : ∃ before q rest, IsMark q ∧
    code = before ++ (strictText q ++ rest) ∧ Passes before (strictText q ++ rest) := by
  induction code with
  | nil =>
    refine absurd ?_ h
    intro q _ hwithin
    simp [strictText] at hwithin
  | cons c code ih =>
    by_cases hstart : ∃ q, IsMark q ∧ strictText q <+: c :: code
    · obtain ⟨q, hq, rest, hrest⟩ := hstart
      refine ⟨[], q, rest, hq, hrest.symm, ?_⟩
      intro y hy hne
      exact absurd (List.suffix_nil.1 hy) hne
    · have hlater : ¬ StrictFree code := by
        intro hfree
        refine h fun q hq hwithin => ?_
        rcases List.infix_cons_iff.1 hwithin with hstarts | hwithin
        · exact hstart ⟨q, hq, hstarts⟩
        · exact hfree q hq hwithin
      obtain ⟨before, q, rest, hq, hcode, hpasses⟩ := ih hlater
      refine ⟨c :: before, q, rest, hq, congrArg (c :: ·) hcode, ?_⟩
      intro y hy hne q' hq' hstarts
      rcases List.suffix_cons_iff.1 hy with rfl | hy
      · exact hstart ⟨q', hq', by rwa [hcode]⟩
      · exact hpasses y hy hne q' hq' hstarts

/-! ## Places -/

theorem InsertsAt.eq_nil {code before between after : List Char} (h : InsertsAt code before (between ++ after))
    (h' : InsertsAt code (before ++ between) after) : between = [] := by
  cases between with
  | nil => rfl
  | cons c between =>
    -- a character that is not the first between the places tells them apart
    obtain ⟨x, hx⟩ : ∃ x : Char, x ≠ c := by
      by_cases hc : c = 'x'
      · exact ⟨'y', by simp [hc]⟩
      · exact ⟨'x', Ne.symm hc⟩
    have hsame := (h.inserted [x]).symm.trans (h'.inserted [x])
    rw [List.append_assoc, List.append_cancel_left_eq] at hsame
    exact absurd (List.cons.inj hsame).1 hx

/-- A text has at most one place where any text is inserted. -/
theorem InsertsAt.unique {code before after before' after' : List Char} (h : InsertsAt code before after)
    (h' : InsertsAt code before' after') : before = before' ∧ after = after' := by
  rcases List.append_eq_append_iff.1 (h.split.symm.trans h'.split) with ⟨between, rfl, rfl⟩ | ⟨between, rfl, rfl⟩
  · obtain rfl := h.eq_nil h'
    simp
  · obtain rfl := h'.eq_nil h
    simp

/-- Code without the directive has no place after one. -/
theorem StrictFree.not_insertsAt {code before after : List Char} (h : StrictFree code) :
    ¬ InsertsAt code before after := by
  intro hinserts
  have hlength := congrArg List.length (hinserts.inserted ['x'])
  rw [h.insertAfterDirective_eq, hinserts.split] at hlength
  simp at hlength

/-- The place is the one behind the first `use strict`. -/
theorem Passes.insertsAt {before rest : List Char} {q : Char} (hq : IsMark q)
    (h : Passes before (strictText q ++ rest)) : ∃ tail after, IsTail tail ∧ rest = tail ++ after ∧
      InsertsAt (before ++ (strictText q ++ rest)) (before ++ (strictText q ++ tail)) after := by
  obtain ⟨tail, after, htail, hrest, hinsert⟩ := insertAfterDirective_strictText hq rest
  refine ⟨tail, after, htail, hrest, by simp [hrest], fun text => ?_⟩
  rw [h.insertAfterDirective_append, hinsert]
  simp

/-! ## Where a `use strict` can end -/

/-- What is passed piece by piece is passed at once. -/
theorem Passes.append {p p' rest : List Char} (h : Passes p (p' ++ rest)) (h' : Passes p' rest) :
    Passes (p ++ p') rest := by
  intro y hy hne q hq hstart
  obtain ⟨x, hx⟩ := hy
  rcases List.append_eq_append_iff.1 hx with ⟨z, rfl, rfl⟩ | ⟨z, rfl, rfl⟩
  · by_cases hz : z = []
    · subst hz
      exact h' p' (List.suffix_refl _) hne q hq (by simpa using hstart)
    · refine h z (List.suffix_append x z) hz q hq ?_
      rwa [List.append_assoc] at hstart
  · exact h' y (List.suffix_append z y) hne q hq hstart

/-- A `use strict` that begins in a text without one would go on behind its end. -/
theorem StrictFree.passes_of_cut {p rest : List Char} (h : StrictFree p)
    (hcut : ∀ q y z, IsMark q → y <:+ p → y ≠ [] → z ≠ [] → strictText q = y ++ z → ¬ z <+: rest) :
    Passes p rest := by
  intro y hy hne q hq hstart
  rcases Nat.lt_or_ge y.length (strictText q).length with hlt | hge
  · obtain ⟨z, hz⟩ := List.prefix_of_prefix_length_le (List.prefix_append y rest) hstart hlt.le
    refine hcut q y z hq hy hne ?_ hz.symm ?_
    · rintro rfl
      rw [← hz] at hlt
      simp at hlt
    · rwa [← hz, List.prefix_append_right_inj] at hstart
  · have hinside := List.prefix_of_prefix_length_le hstart (List.prefix_append y rest) hge
    exact h q hq (hinside.isInfix.trans hy.isInfix)

theorem mem_of_suffix_concat {y p : List Char} {c : Char} (h : y <:+ p ++ [c]) (hne : y ≠ []) : c ∈ y := by
  obtain ⟨x, hx⟩ := h
  have hlast := congrArg List.getLast? hx
  rw [List.getLast?_append_of_ne_nil x hne, List.getLast?_concat] at hlast
  exact List.mem_of_getLast? hlast

/-- No character of the directive is a slash, a semicolon or a line end. -/
theorem of_mem_strictText {q c : Char} (hq : IsMark q) (h : c ∈ strictText q) :
    (c ≠ '/' ∧ c ≠ ';') ∧ isLineEnd c = false := by
  have hall : ∀ q, IsMark q → (strictText q).all (fun c => (c != '/' && c != ';') && !isLineEnd c) = true := by
    rintro q (rfl | rfl) <;> decide +kernel
  simpa using List.all_eq_true.1 (hall q hq) c h

/-- None goes on behind the end of a line. -/
theorem StrictFree.passes_of_line {p rest : List Char} (h : StrictFree p)
    (hrest : ∀ c ∈ rest.head?, isLineEnd c = true) : Passes p rest := by
  refine h.passes_of_cut fun q y z hq _ _ hz htext hstarts => ?_
  obtain ⟨c, z, rfl⟩ := List.exists_cons_of_ne_nil hz
  obtain ⟨after, rfl⟩ := hstarts
  have hline := (of_mem_strictText hq (by simp [htext] : c ∈ strictText q)).2
  rw [hrest c rfl] at hline
  cases hline

/-- None goes on behind a slash or a semicolon. -/
theorem StrictFree.passes_of_last {p : List Char} {c : Char} (h : StrictFree (p ++ [c])) (hc : c = '/' ∨ c = ';')
    (rest : List Char) : Passes (p ++ [c]) rest := by
  refine h.passes_of_cut fun q y z hq hy hne _ htext _ => ?_
  have hmem : c ∈ strictText q := htext ▸ List.mem_append_left z (mem_of_suffix_concat hy hne)
  obtain ⟨⟨hslash, hsemicolon⟩, -⟩ := of_mem_strictText hq hmem
  exact hc.elim hslash hsemicolon

/-- None goes on behind a mark, unless with its second character. -/
theorem StrictFree.passes_of_mark {p : List Char} {q : Char} (h : StrictFree (p ++ [q])) (hq : IsMark q)
    {rest : List Char} (hrest : rest.head? ≠ some 'u') : Passes (p ++ [q]) rest := by
  refine h.passes_of_cut fun q' y z _ hy hne hz htext hstarts => ?_
  obtain ⟨y, c, rfl⟩ := List.eq_nil_or_concat' y |>.resolve_left hne
  obtain rfl : c = q := by
    obtain ⟨x, hx⟩ := hy
    rw [← List.append_assoc] at hx
    exact List.singleton_inj.1 (List.append_inj' hx rfl).2
  have hword : c ∉ "use strict".toList := by rcases hq with rfl | rfl <;> decide
  cases y with
  | nil =>
    obtain ⟨-, rfl⟩ := List.cons.inj htext
    obtain ⟨after, rfl⟩ := hstarts
    exact hrest rfl
  | cons first y =>
    -- the mark would stand inside of the words
    obtain ⟨z, d, rfl⟩ := List.eq_nil_or_concat' z |>.resolve_left hz
    have hwords : "use strict".toList ++ [q'] = (y ++ c :: z) ++ [d] := by
      simpa using (List.cons.inj htext).2
    have hmem : c ∈ "use strict".toList := by
      rw [(List.append_inj' hwords rfl).1]
      simp
    exact hword hmem

/-! ## Pieces -/

/-- Characters with which the pieces of a prologue begin. -/
def isOpener (c : Char) : Bool := isBlank c || c == '/' || c == '<' || c == '"' || c == '\'' || c == '#'

theorem Spacing.head {s rest : List Char} (h : Spacing s rest) : ∃ c cs, s = c :: cs ∧ isOpener c = true := by
  cases h with
  | blank h => exact ⟨_, _, rfl, by simp [isOpener, h]⟩
  | line hmark =>
    rcases hmark with rfl | rfl
    · exact ⟨'/', _, rfl, rfl⟩
    · exact ⟨'<', _, rfl, rfl⟩
  | block => exact ⟨'/', _, rfl, rfl⟩

theorem Piece.head {p rest : List Char} (h : Piece p rest) : ∃ c cs, p = c :: cs ∧ isOpener c = true := by
  cases h with
  | spacing h => exact h.head
  | directive hq => exact ⟨_, _, rfl, by rcases hq with rfl | rfl <;> rfl⟩

theorem Each.head {R : List Char → List Char → Prop} {ps : List (List Char)} {rest : List Char}
    (hR : ∀ p rest, R p rest → ∃ c cs, p = c :: cs ∧ isOpener c = true) (h : Each R ps rest) (hne : ps ≠ []) :
    ∃ c cs, ps.flatten = c :: cs ∧ isOpener c = true := by
  cases h with
  | nil => exact absurd rfl hne
  | cons h _ =>
    obtain ⟨c, cs, rfl, hc⟩ := hR _ _ h
    exact ⟨c, _, rfl, hc⟩

/-- A prologue begins with an opener. -/
theorem Prologue.head {ps : List (List Char)} {rest : List Char} (h : Prologue ps rest) (hne : ps ≠ []) :
    ∃ c cs, ps.flatten = c :: cs ∧ isOpener c = true := by
  cases h with
  | plain h => exact h.head (fun _ _ => Piece.head) hne
  | interpreter => exact ⟨'#', _, rfl, rfl⟩

/-- So does a script with a place behind a prologue and its directive. -/
theorem BehindDirective.head {before after : List Char} (h : BehindDirective before after) :
    ∃ c cs, before = c :: cs ∧ isOpener c = true := by
  obtain ⟨ps, q, tail, hq, -, rfl, hprologue, -⟩ := h
  by_cases hne : ps = []
  · subst hne
    exact ⟨q, _, rfl, by rcases hq with rfl | rfl <;> rfl⟩
  · obtain ⟨c, cs, hcs, hc⟩ := hprologue.head hne
    exact ⟨c, _, by rw [hcs, List.cons_append], hc⟩

theorem Each.head?_ne {ss : List (List Char)} {next : List Char} (h : Each Spacing ss next) (hne : ss ≠ [])
    (rest : List Char) : (ss.flatten ++ rest).head? ≠ some 'u' := by
  obtain ⟨c, cs, hcs, hc⟩ := h.head (fun _ _ => Spacing.head) hne
  rw [hcs]
  intro hu
  cases Option.some.inj hu
  cases hc

/-- Where a statement ends without a semicolon, no letter follows at once. -/
theorem Ends.head?_ne {rest : List Char} (h : Ends [] rest) : rest.head? ≠ some 'u' := by
  generalize hstop : [] = stop at h
  cases h with
  | semicolon => simp at hstop
  | @script ss h =>
    by_cases hne : ss = []
    · simp [hne]
    · simpa using h.head?_ne hne []
  | @line ss next h hline =>
    refine h.head?_ne ?_ next
    rintro rfl
    simp at hline

/-- Space without the directive is passed. -/
theorem Spacing.passes {s rest : List Char} (h : Spacing s rest) (hfree : StrictFree s) : Passes s rest := by
  cases h with
  | @blank c _ hblank =>
    refine hfree.passes_of_cut fun q y z hq hy hne _ htext _ => ?_
    obtain rfl | hy := List.suffix_cons_iff.1 hy
    · obtain ⟨rfl, -⟩ := List.cons.inj htext
      rcases hq with rfl | rfl <;> cases hblank
    · exact hne (List.suffix_nil.1 hy)
  | line _ _ hrest => exact hfree.passes_of_line hrest
  | @block text _ _ =>
    have hlast : '/' :: '*' :: (text ++ ['*', '/']) = ('/' :: '*' :: (text ++ ['*'])) ++ ['/'] := by simp
    rw [hlast] at hfree ⊢
    exact hfree.passes_of_last (.inl rfl) rest

/-- No `use strict` begins in a piece and ends behind it. -/
theorem Piece.passes {p rest : List Char} (h : Piece p rest) (hfree : StrictFree p) : Passes p rest := by
  cases h with
  | spacing h => exact h.passes hfree
  | @directive q body stop _ hq _ hstop =>
    cases hstop with
    | @semicolon ss =>
      have hlast : q :: (body ++ q :: (ss.flatten ++ [';'])) = (q :: (body ++ q :: ss.flatten)) ++ [';'] := by simp
      rw [hlast] at hfree ⊢
      exact hfree.passes_of_last (.inr rfl) rest
    | script h => exact StrictFree.passes_of_mark (p := q :: body) hfree hq (Ends.script h).head?_ne
    | line h hline hnext hnew =>
      exact StrictFree.passes_of_mark (p := q :: body) hfree hq (Ends.line h hline hnext hnew).head?_ne

/-- So are many pieces of it. -/
theorem Each.passes {ps : List (List Char)} {rest : List Char} (h : Each Piece ps rest)
    (hfree : ∀ p ∈ ps, StrictFree p) : Passes ps.flatten rest := by
  induction h with
  | nil =>
    intro y hy hne
    exact absurd (List.suffix_nil.1 hy) hne
  | cons h _ ih =>
    rw [List.flatten_cons]
    exact (h.passes (hfree _ List.mem_cons_self)).append (ih fun p hp => hfree p (List.mem_cons_of_mem _ hp))

/-- A prologue is passed if none of its pieces is the directive. -/
theorem Prologue.passes {ps : List (List Char)} {rest : List Char} (h : Prologue ps rest)
    (hfree : ∀ p ∈ ps, StrictFree p) : Passes ps.flatten rest := by
  cases h with
  | plain h => exact h.passes hfree
  | interpreter _ hrest h =>
    have hfirst := (hfree _ List.mem_cons_self).passes_of_line hrest
    exact hfirst.append (h.passes fun p hp => hfree p (List.mem_cons_of_mem _ hp))

/-! ## The whole script -/

/-- There is no quotation mark in the tail. -/
theorem not_mem_of_isTail {tail : List Char} (h : IsTail tail) {q : Char} (hq : IsMark q) : q ∉ tail := by
  obtain ⟨blanks, hblanks, htail⟩ := h
  intro hmem
  have hcases : q ∈ blanks ∨ q = ';' := by
    rcases htail with rfl | rfl
    · exact .inl hmem
    · simpa using hmem
  rcases hcases with hmem | rfl
  · rcases hblanks q hmem with rfl | rfl <;> simp [IsMark] at hq
  · simp [IsMark] at hq

theorem eq_nil_of_append_strictText {b b' between : List Char} {q : Char} (hq : q ∉ between)
    (h : b ++ strictText q = b' ++ between) : between = [] := by
  by_contra hne
  have hlast := congrArg List.getLast? h
  rw [List.getLast?_append_of_ne_nil b' hne, List.getLast?_append_of_ne_nil b (by simp [strictText])] at hlast
  exact hq (List.mem_of_getLast? hlast.symm)

/-- The last mark of a text tells where a `use strict` before a tail stands. -/
theorem append_strictText_inj {b b' tail tail' : List Char} {q q' : Char} (hq : IsMark q) (hq' : IsMark q')
    (ht : IsTail tail) (ht' : IsTail tail') (h : b ++ (strictText q ++ tail) = b' ++ (strictText q' ++ tail')) :
    b = b' ∧ q = q' ∧ tail = tail' := by
  rw [← List.append_assoc, ← List.append_assoc, List.append_eq_append_iff] at h
  rcases h with ⟨between, hb, rfl⟩ | ⟨between, hb, rfl⟩
  · have hmark : q' ∉ between := fun hmem => not_mem_of_isTail ht hq' (List.mem_append_left _ hmem)
    obtain rfl := eq_nil_of_append_strictText hmark hb
    rw [List.append_nil] at hb
    obtain ⟨rfl, hword⟩ := List.append_inj' hb rfl
    exact ⟨rfl, (List.cons.inj hword).1.symm, rfl⟩
  · have hmark : q ∉ between := fun hmem => not_mem_of_isTail ht' hq (List.mem_append_left _ hmem)
    obtain rfl := eq_nil_of_append_strictText hmark hb
    rw [List.append_nil] at hb
    obtain ⟨rfl, hword⟩ := List.append_inj' hb rfl
    exact ⟨rfl, (List.cons.inj hword).1, rfl⟩

/-- A bundle is finished from the code with the creation of the mount inserted behind its directive. -/
theorem assemble_eq_finished (code mount : String) (names : List String) :
    assemble code mount names = finished mount names (insertAfterDirective (creation mount) code.toList) := rfl

/-- **The mount object is created behind the first `use strict`, directive or not.** A text without any is finished as it
is; in any other the mount object is created at one place. It is never created elsewhere than behind a prologue and its
directive exactly if there is no `use strict` at all, or one is a directive of the prologue and there is none in the
comments and directives before it. -/
theorem assemble_in_prologue_iff (code mount : String) (names : List String) :
    (StrictFree code.toList ∧ assemble code mount names = finished mount names code.toList ∨
      ∃ before after, InsertsAt code.toList before after ∧
        assemble code mount names = finished mount names (before ++ (creation mount ++ after))) ∧
    ((∀ before after, InsertsAt code.toList before after → BehindDirective before after) ↔
      StrictFree code.toList ∨ ∃ ps q rest, IsMark q ∧ code.toList = ps.flatten ++ (strictText q ++ rest) ∧
        Prologue ps (strictText q ++ rest) ∧ (∃ stop next, rest = stop ++ next ∧ Ends stop next) ∧
        ∀ p ∈ ps, StrictFree p) := by
  rw [assemble_eq_finished]
  by_cases hfree : StrictFree code.toList
  · rw [hfree.insertAfterDirective_eq]
    exact ⟨.inl ⟨hfree, rfl⟩, fun _ => .inl hfree, fun _ _ _ hinserts => absurd hinserts hfree.not_insertsAt⟩
  · obtain ⟨before, q, rest, hq, hcode, hpasses⟩ := exists_first hfree
    obtain ⟨tail, after, htail, rfl, hinserts⟩ := hpasses.insertsAt hq
    rw [← hcode] at hinserts
    refine ⟨.inr ⟨_, after, hinserts, by rw [hinserts.inserted]⟩, fun hlaw => .inr ?_, fun hprologue => ?_⟩
    · obtain ⟨ps, q', tail', hq', htail', hbefore, hprologue, hends⟩ := hlaw _ _ hinserts
      obtain ⟨rfl, rfl, rfl⟩ := append_strictText_inj hq hq' htail htail' hbefore
      refine ⟨ps, q, tail ++ after, hq, hcode, hprologue, hends, fun p hp q hq hwithin => ?_⟩
      exact hpasses.free q hq (hwithin.trans (List.infix_of_mem_flatten hp))
    · obtain ⟨ps, q', rest', hq', hcode', hprologue, hends, hpieces⟩ := hprologue.resolve_left hfree
      obtain ⟨tail', after', htail', rfl, hinserts'⟩ := (hprologue.passes hpieces).insertsAt hq'
      rw [← hcode'] at hinserts'
      intro b a hba
      obtain ⟨rfl, rfl⟩ := hba.unique hinserts'
      exact ⟨ps, q', tail', hq', htail', rfl, hprologue, hends⟩

-- behind a comment, and a directive that ends with its line
example : BehindDirective "// c\n'use strict'".toList "\nlet a;".toList := by
  have hcomment : Spacing ['/', '/', ' ', 'c'] "\n'use strict'\nlet a;".toList := by
    refine @Spacing.line ['/', '/'] [' ', 'c'] _ (.inl rfl) ?_ ?_
    · simp [isLineEnd]
    · rintro c ⟨⟩
      rfl
  have hends : Ends [] "\nlet a;".toList := by
    refine @Ends.line [['\n']] "let a;".toList (.cons (.blank rfl) .nil) ⟨'\n', by simp, rfl⟩ ?_ (by decide +kernel)
    intro s rest hnext hspacing
    obtain ⟨c, cs, rfl, hc⟩ := hspacing.head
    cases (List.cons.inj hnext).1
    cases hc
  exact ⟨[['/', '/', ' ', 'c'], ['\n']], '\'', [], .inr rfl, ⟨[], by simp, .inl rfl⟩, rfl,
    .plain (.cons (.spacing hcomment) (.cons (.spacing (.blank rfl)) .nil)), [], _, rfl, hends⟩

/-- The directive of a function, in a script without one. -/
def nestedBundle : String := "function f() \x7b\n  \"use strict\";\n\x7d\n"

/-- The mount object is created when the function is called, and each time it is. -/
theorem assemble_in_function_body :
    assemble nestedBundle "preload" [] =
        "function f() \x7b\n  \"use strict\";\nwindow.preload = Object.create(null);\n\x7d\n" ∧
      ∃ before after, InsertsAt nestedBundle.toList before after ∧ ¬ BehindDirective before after := by
  have hfree : ¬ StrictFree nestedBundle.toList := fun h => h '"' (.inl rfl) (by decide +kernel)
  obtain ⟨before, q, rest, hq, hcode, hpasses⟩ := exists_first hfree
  obtain ⟨tail, after, -, rfl, hinserts⟩ := hpasses.insertsAt hq
  rw [← hcode] at hinserts
  refine ⟨by decide +kernel, _, after, hinserts, fun hbehind => ?_⟩
  obtain ⟨c, cs, hbefore, hc⟩ := hbehind.head
  have hfirst : nestedBundle.toList.head? = some c := by rw [hinserts.split, hbefore]; rfl
  have hopener : nestedBundle.toList.head?.all isOpener = false := by decide +kernel
  rw [hfirst, Option.all_some, hc] at hopener
  cases hopener

end ModuleMock.Bundle
