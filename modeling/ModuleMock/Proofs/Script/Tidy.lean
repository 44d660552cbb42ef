import ModuleMock.Proofs.Script.Spelling
import ModuleMock.Proofs.Syntax.Faults

/-!
# What parsers yield

A node without faults is `Tidy` if the texts of its literals and names are tokens of their classes and its pairs have
proper keys. Every parser yields nodes that are tidy unless they have faults (`Sound`), whatever the patches.

The class `Yields` says so of one parser. It is closed under all combinators, so that the rules of the grammar get their
instances from those of their parts, except for the few that build a form about which `Shape` says something.
-/

namespace ModuleMock.Syntax

/-- Forms about whose nodes nothing is promised beyond their children. -/
@[reducible] def Form.isPlain : Form → Bool
  | .string | .templateString | .number | .propertyIdentifier | .shorthandPropertyIdentifier
  | .privatePropertyIdentifier | .pair | .jsxAttribute => false
  | _ => true

@[reducible] def Kind.isPlain : Kind → Bool
  | .form f => f.isPlain
  | .token _ => true

/-- Can the node be the key of a pair? -/
def Node.isKey (n : Node) : Bool :=
  n.isForm .propertyIdentifier || n.isForm .privatePropertyIdentifier || n.isForm .string || n.isForm .number
    || n.isForm .computedPropertyName

end ModuleMock.Syntax

namespace ModuleMock.Script

open ModuleMock.Syntax

/-! ## Tidy nodes -/

/-- What the text and the children of a node look like, by its kind. -/
def Shape : Kind → List Char → List Node → Prop
  | .form .string, text, _ => StringSpelling text
  | .form .templateString, text, cs => (∀ c ∈ cs, c.isForm .templateSubstitution = false) → TemplateToken text
  | .form .number, text, _ => NumberToken text
  | .form .propertyIdentifier, text, _ => WordToken text
  | .form .shorthandPropertyIdentifier, text, _ => WordToken text
  | .form .privatePropertyIdentifier, text, _ => PrivateToken text
  | .form .pair, _, cs => ∀ key, cs.find? (fun c => c.label == some .key) = some key → key.isKey
  | _, _, _ => True

/-- Strings in the attributes of embedded markup have rules of their own: they know no escapes. -/
def isExempt (k : Kind) (c : Node) : Bool := k == .form .jsxAttribute && c.isForm .string && c.children.isEmpty

inductive Tidy : Node → Prop
  | mk {k : Kind} {l : Option Label} {e : Extent} {m : Bool} {cs : List Node} (shape : Shape k e.text.toList cs)
      (children : ∀ c ∈ cs, isExempt k c = false → Tidy c) : Tidy (.mk k l e m cs)

/-- Tidy, or faulty. -/
def Sound (n : Node) : Prop := n.hasFault = false → Tidy n

/-- Plain kinds have no shape to keep. -/
theorem shape_of_isPlain {k : Kind} (hk : k.isPlain = true) (text : List Char) (cs : List Node) : Shape k text cs := by
  unfold Shape
  split <;> first | exact trivial | cases hk

section Nodes

variable {n : Node} {k : Kind} {l : Option Label} {e : Extent} {m : Bool} {cs : List Node}

/-- A node is sound if its shape is kept and its children are sound, those apart that its kind exempts. -/
theorem sound_mk (hs : (Node.mk k l e m cs).hasFault = false → Shape k e.text.toList cs)
    (hc : ∀ c ∈ cs, isExempt k c = false → Sound c) : Sound (.mk k l e m cs) := fun hf =>
  .mk (hs hf) fun c hm he => hc c hm he ((hasFault_eq_false.1 hf).2.2 c hm)

/-- A missing node is sound, since it is a fault itself. -/
theorem sound_missing : Sound (.mk k l e true cs) := fun hf => by simp [hasFault_eq_false] at hf

@[simp] theorem sound_withLabel {l : Label} : Sound (n.withLabel l) ↔ Sound n := by
  obtain ⟨k, l', e, m, cs⟩ := n
  constructor <;> intro h hf
  · obtain ⟨shape, children⟩ := h (hasFault_eq_false.2 (hasFault_eq_false.1 hf))
    exact .mk shape children
  · obtain ⟨shape, children⟩ := h (hasFault_eq_false.2 (hasFault_eq_false.1 hf))
    exact .mk shape children

end Nodes

/-! ## Cursors -/

namespace Cursor

/-- Reading a text leads from one cursor to another. -/
def Reads (c : Cursor) (t : List Char) (c' : Cursor) : Prop := c.rest = t ++ c'.rest ∧ c'.index = c.index + t.length

theorem Reads.refl (c : Cursor) : Reads c [] c := ⟨rfl, rfl⟩

/-- What is read in two steps is read in one. -/
theorem Reads.trans {a b c : Cursor} {t u : List Char} (h : Reads a t b) (h' : Reads b u c) : Reads a (t ++ u) c :=
  ⟨by rw [h.1, h'.1, List.append_assoc], by rw [h'.2, h.2, List.length_append, Nat.add_assoc]⟩

/-- Advancing reads the characters it passes. -/
theorem reads_advance : ∀ (n : Nat) (c : Cursor), Reads c (c.rest.take n) (c.advance n)
  | 0, c => ⟨rfl, rfl⟩
  | n + 1, ⟨[], index, row⟩ => ⟨rfl, rfl⟩
  | n + 1, ⟨x :: xs, index, row⟩ => by
    obtain ⟨hr, hi⟩ := reads_advance n ⟨xs, index + 1, if x == '\n' then row + 1 else row⟩
    refine ⟨congrArg (x :: ·) hr, hi.trans ?_⟩
    simp only [List.take_succ_cons, List.length_cons]
    omega

/-- The text of a node is what is read from its start to its stop. -/
theorem Reads.text {c c' : Cursor} {t : List Char} (h : Reads c t c') (k : Kind) (cs : List Node) :
    (c.nodeTo c' k cs).text.toList = t := by
  simp only [nodeTo, Node.text, Node.extent, extentTo, String.toList_ofList]
  rw [h.2, Nat.add_sub_cancel_left, h.1, List.take_left]

end Cursor

section Stretches

variable {k : Kind} {a b : Cursor} {cs : List Node}

/-- A node over text that is read is sound if the text has the shape. -/
theorem sound_of_reads {t : List Char} (hr : a.Reads t b)
    (hs : (a.nodeTo b k cs).hasFault = false → Shape k t cs) (hc : ∀ c ∈ cs, isExempt k c = false → Sound c) :
    Sound (a.nodeTo b k cs) := by
  refine sound_mk (fun hf => ?_) hc
  have htext : (a.extentTo b).text.toList = t := hr.text k cs
  exact htext ▸ hs hf

/-- A node of a plain kind is sound if its children are. -/
theorem sound_nodeTo (hk : k.isPlain = true) (hc : ∀ c ∈ cs, Sound c) : Sound (a.nodeTo b k cs) :=
  sound_mk (fun _ => shape_of_isPlain hk _ _) fun c hm _ => hc c hm

end Stretches

/-! ## Yields -/

/-- What is promised of the values of a type that parsers give. -/
class Checked (α : Type) where
  ok : α → Prop

export Checked (ok)

instance : Checked Fragment := ⟨fun fragment => ∀ n ∈ fragment, Sound n⟩

instance : Checked Node := ⟨Sound⟩

/-- A form with the parts of a node that is yet to be built. -/
instance : Checked (Form × Fragment) := ⟨fun p => p.1.isPlain = true ∧ ok p.2⟩

/-- Of values that hold no nodes nothing is promised. -/
instance (priority := low) uncheckedOf {α : Type} : Checked α := ⟨fun _ => True⟩

theorem ok_fragment {fragment : Fragment} : ok fragment ↔ ∀ n ∈ fragment, Sound n := Iff.rfl

@[simp] theorem ok_nil : ok ([] : Fragment) := by simp [ok_fragment]

@[simp] theorem ok_cons {n : Node} {ns : Fragment} : ok (n :: ns : Fragment) ↔ Sound n ∧ ok ns := by simp [ok_fragment]

@[simp] theorem ok_append {as bs : Fragment} : ok (as ++ bs : Fragment) ↔ ok as ∧ ok bs := by
  simp [ok_fragment, or_imp, forall_and]

@[simp] theorem ok_labelLast {l : Label} {fragment : Fragment} : ok (labelLast l fragment) ↔ ok fragment := by
  rcases List.eq_nil_or_concat fragment with rfl | ⟨before, n, rfl⟩
  · rfl
  · simp [labelLast, ok_fragment, or_imp, forall_and]

/-- The last node of a fragment is sound with the others. -/
theorem sound_of_reverse {fragment rest : Fragment} {n : Node} (h : fragment.reverse = n :: rest) (hf : ok fragment) :
    Sound n := hf n (List.mem_reverse.1 (h ▸ List.mem_cons_self))

/-- Every value that the parser finds has a property. -/
structure Gives {α : Type} (P : α → Prop) (p : Parser α) : Prop where
  of_found : ∀ {s : Setting} {c c' : Cursor} {r r' : Nat} {a : α}, p s c r = .found a c' r' → P a

theorem Gives.imp {α : Type} {P Q : α → Prop} {p : Parser α} (h : Gives P p) (hpq : ∀ a, P a → Q a) : Gives Q p :=
  ⟨fun hf => hpq _ (h.of_found hf)⟩

/-! ## Combinators -/

/-- A sequence finds what its second parser finds where the first has stopped. -/
theorem bind_found {α β : Type} {p : Parser α} {f : α → Parser β} {s : Setting} {c c' : Cursor} {r r' : Nat} {b : β} :
    (p >>= f) s c r = .found b c' r' ↔ ∃ a c₁ r₁, p s c r = .found a c₁ r₁ ∧ f a s c₁ r₁ = .found b c' r' := by
  simp only [Bind.bind, Parser.bind]
  cases p s c r with
  | found a c₁ r₁ => simp
  | stuck r₁ => simp

section General

variable {α β : Type} {P : α → Prop} {Q : β → Prop}

theorem gives_fail : Gives P Parser.fail := ⟨fun h => by cases h⟩

theorem gives_refuse {index : Nat} : Gives P (Parser.refuse index) := ⟨fun h => by cases h⟩

theorem gives_parserPure {a : α} : Gives P (Parser.pure a) ↔ P a := by
  refine ⟨fun h => h.of_found (s := ⟨.plain, 0, []⟩) (c := ⟨[], 0, 0⟩) (r := 0) rfl, fun h => ⟨fun he => ?_⟩⟩
  cases he
  exact h

theorem gives_pure {a : α} : Gives P (pure a : Parser α) ↔ P a := gives_parserPure

/-- What a sequence gives, if its first parser gives what the second needs. -/
theorem gives_bind {p : Parser α} {f : α → Parser β} (hp : Gives P p) (hf : ∀ a, P a → Gives Q (f a)) :
    Gives Q (p >>= f) := by
  refine ⟨fun h => ?_⟩
  obtain ⟨a, _, _, ha, h⟩ := bind_found.1 h
  exact (hf a (hp.of_found ha)).of_found h

/-- A choice gives what both sides give. -/
theorem gives_orElse {p : Parser α} {q : Unit → Parser α} (hp : Gives P p) (hq : Gives P (q ())) :
    Gives P (p.orElse q) := by
  refine ⟨fun h => ?_⟩
  unfold Parser.orElse at h
  split at h
  · rename_i hb
    cases h
    exact hp.of_found hb
  · exact hq.of_found h

theorem gives_ite {b : Prop} [Decidable b] {p q : Parser α} (hp : Gives P p) (hq : Gives P q) :
    Gives P (if b then p else q) := by
  split
  · exact hp
  · exact hq

/-- A choice among many gives what they all give. -/
theorem gives_firstOf {ps : List (Parser α)} (h : ∀ p ∈ ps, Gives P p) : Gives P (Parser.firstOf ps) := by
  induction ps with
  | nil => exact gives_fail
  | cons p ps ih =>
    exact gives_orElse (q := fun _ => Parser.firstOf ps) (h p List.mem_cons_self)
      (ih fun q hq => h q (List.mem_cons_of_mem _ hq))

theorem firstOf_append (ps qs : List (Parser α)) :
    Parser.firstOf (ps ++ qs) = (Parser.firstOf ps).orElse fun _ => Parser.firstOf qs := by
  induction ps with
  | nil => rfl
  | cons p ps ih =>
    funext s c r
    show Parser.orElse p (fun _ => Parser.firstOf (ps ++ qs)) s c r =
      Parser.orElse (Parser.orElse p fun _ => Parser.firstOf ps) (fun _ => Parser.firstOf qs) s c r
    rw [ih]
    unfold Parser.orElse
    cases p s c r <;> rfl

end General

/-- A sequence of fragments finds the first and then the others. -/
theorem sequence_found {p : Parser Fragment} {ps : List (Parser Fragment)} {s : Setting} {c c' : Cursor} {r r' : Nat}
    {a : Fragment} (h : Parser.sequence (p :: ps) s c r = .found a c' r') :
    ∃ first c₁ r₁ more, p s c r = .found first c₁ r₁ ∧ Parser.sequence ps s c₁ r₁ = .found more c' r' ∧
      a = first ++ more := by
  obtain ⟨first, c₁, r₁, hp, h⟩ := bind_found.1 h
  obtain ⟨more, c₂, r₂, hps, h⟩ := bind_found.1 h
  cases h
  exact ⟨first, c₁, r₁, more, hp, hps, rfl⟩

section Fragments

variable {P : Node → Prop} {p : Parser Fragment}

/-- What holds of the nodes of all parts holds of those of the whole. -/
theorem gives_sequence {ps : List (Parser Fragment)} (h : ∀ p ∈ ps, Gives (fun a => ∀ n ∈ a, P n) p) :
    Gives (fun a => ∀ n ∈ a, P n) (Parser.sequence ps) := by
  induction ps with
  | nil => exact gives_parserPure.2 (by simp)
  | cons p ps ih =>
    refine ⟨fun hfound => ?_⟩
    obtain ⟨first, _, _, more, hp, hps, rfl⟩ := sequence_found hfound
    intro n hn
    rcases List.mem_append.1 hn with hn | hn
    · exact (h p List.mem_cons_self).of_found hp n hn
    · exact (ih fun q hq => h q (List.mem_cons_of_mem _ hq)).of_found hps n hn

theorem gives_optional (hp : Gives (fun a => ∀ n ∈ a, P n) p) : Gives (fun a => ∀ n ∈ a, P n) p.optional :=
  gives_orElse (q := fun _ => Parser.pure []) hp (gives_parserPure.2 (by simp))

/-- Repetition gives nodes of one kind if each round does. -/
theorem gives_repeatUpTo (hp : Gives (fun a => ∀ n ∈ a, P n) p) :
    ∀ {fuel : Nat} {read : Fragment}, (∀ n ∈ read, P n) → Gives (fun a => ∀ n ∈ a, P n) (p.repeatUpTo fuel read)
  | 0, read, hr => gives_parserPure.2 hr
  | fuel + 1, read, hr => by
    refine ⟨fun h => ?_⟩
    unfold Parser.repeatUpTo at h
    split at h
    · cases h
      exact hr
    · rename_i hm
      split at h
      · cases h
        exact hr
      · refine (gives_repeatUpTo hp fun n hn => ?_).of_found h
        exact (List.mem_append.1 hn).elim (hr n) (hp.of_found hm n)

end Fragments

/-! ## Between tokens -/

/-- A comment, or skipped text. -/
def IsExtra (n : Node) : Prop := ∃ a b f, (f = .comment ∨ f = .error) ∧ n = Cursor.nodeTo a b (.form f) []

theorem IsExtra.label {n : Node} (h : IsExtra n) : n.label = none := by
  obtain ⟨a, b, f, -, rfl⟩ := h
  rfl

/-- Extras are sound. -/
theorem IsExtra.sound {n : Node} (h : IsExtra n) : Sound n := by
  obtain ⟨a, b, f, rfl | rfl, rfl⟩ := h <;> exact sound_nodeTo rfl (by simp)

/-- Skipping adds extras only. -/
theorem skipTrivia_extras (patches : List Patch) (fuel : Nat) (c : Cursor) (extras : List Node) :
    ∃ more, (skipTrivia patches fuel c extras).1 = extras ++ more ∧ ∀ n ∈ more, IsExtra n := by
  have hnone : ∀ extras : List Node, ∃ more, extras = extras ++ more ∧ ∀ n ∈ more, IsExtra n := fun _ =>
    ⟨[], by simp, by simp⟩
  fun_induction skipTrivia patches fuel c extras with
  | case1 c extras => exact hnone extras
  | case2 fuel c extras stop _ next ih =>
    obtain ⟨more, he, hm⟩ := ih
    refine ⟨c.nodeTo next (.form .error) [] :: more, by simp [he], ?_⟩
    simpa using ⟨⟨c, next, .error, .inr rfl, rfl⟩, hm⟩
  | case3 fuel c extras => exact hnone extras
  | case4 fuel c extras _ x rest _ _ ih => exact ih
  | case5 fuel c extras _ x rest _ _ n _ next ih =>
    obtain ⟨more, he, hm⟩ := ih
    refine ⟨c.nodeTo next (.form .comment) [] :: more, by simp [he], ?_⟩
    simpa using ⟨⟨c, next, .comment, .inl rfl, rfl⟩, hm⟩
  | case6 fuel c extras => exact hnone extras

/-- What is stepped over is a gap, unless some of it is skipped, or a line comment is cut off. -/
theorem skipTrivia_gap {patches : List Patch} {x : Char} {rest : List Char} (hx : isLineEnd x = false)
    (fuel : Nat) (c : Cursor) (extras : List Node) (hrest : (skipTrivia patches fuel c extras).2.rest = x :: rest)
    (hskip : ∀ n ∈ (skipTrivia patches fuel c extras).1, n.isForm .error = false) :
    ∃ gap, c.Reads gap (skipTrivia patches fuel c extras).2 ∧ Gap gap := by
  fun_induction skipTrivia patches fuel c extras with
  | case1 c extras => exact ⟨[], .refl c, .nil⟩
  | case2 fuel c extras stop _ next ih =>
    obtain ⟨more, he, -⟩ := skipTrivia_extras patches fuel next (extras ++ [c.nodeTo next (.form .error) []])
    refine absurd (hskip (c.nodeTo next (.form .error) []) ?_) (by simp [Node.isForm, Node.kind, Cursor.nodeTo])
    rw [he]
    simp
  | case3 fuel c extras => exact ⟨[], .refl c, .nil⟩
  | case4 fuel c extras _ y ys hy hb ih =>
    obtain ⟨gap, hr, hg⟩ := ih hrest hskip
    have hstep := Cursor.reads_advance 1 c
    rw [hy, List.take_succ_cons, List.take_zero] at hstep
    exact ⟨y :: gap, hstep.trans hr, .blank hb hg⟩
  | case5 fuel c extras _ y ys _ _ n hn next ih =>
    obtain ⟨gap, hr, hg⟩ := ih hrest hskip
    have hstep := Cursor.reads_advance n c
    have hdrop : c.rest.drop n = gap ++ x :: rest := by
      rw [← hrest, ← hr.1]
      exact List.append_cancel_left ((List.take_append_drop n c.rest).trans hstep.1)
    exact ⟨c.rest.take n ++ gap, hstep.trans hr, .of_comment hn hdrop hx hg⟩
  | case6 fuel c extras => exact ⟨[], .refl c, .nil⟩

/-- Trivia are skipped as far as they go. -/
theorem trivia_found {s : Setting} {c c' : Cursor} {r r' : Nat} {a : Fragment} (h : trivia s c r = .found a c' r') :
    (a, c') = skipTrivia s.patches (s.size + 1) c [] := by
  unfold trivia at h
  generalize skipTrivia s.patches (s.size + 1) c [] = read at h
  cases h
  rfl

theorem gives_trivia : Gives (fun a => ∀ n ∈ a, IsExtra n) trivia := by
  refine ⟨fun {s c c' r r' a} h => ?_⟩
  obtain ⟨more, he, hm⟩ := skipTrivia_extras s.patches (s.size + 1) c []
  rw [← trivia_found h, List.nil_append] at he
  obtain rfl : a = more := he
  exact hm

theorem ok_of_extras {extras : Fragment} (h : ∀ n ∈ extras, IsExtra n) : ok extras := fun n hn => (h n hn).sound

/-! ## Nodes around fragments -/

/-- A phrase consists of its extras and one node over what its parser reads. -/
theorem phraseOf_found {k : Kind} {p : Parser Fragment} {s : Setting} {c c' : Cursor} {r r' : Nat} {a : Fragment}
    (h : phraseOf k p s c r = .found a c' r') :
    ∃ extras start r₁ children, trivia s c r = .found extras start r₁ ∧ p s start r₁ = .found children c' r' ∧
      a = extras ++ [start.nodeTo c' k children] := by
  obtain ⟨extras, start, r₁, he, h⟩ := bind_found.1 h
  obtain ⟨_, _, _, hs, h⟩ := bind_found.1 h
  cases hs
  obtain ⟨children, _, _, hc, h⟩ := bind_found.1 h
  obtain ⟨_, _, _, hs, h⟩ := bind_found.1 h
  cases hs
  cases h
  exact ⟨extras, start, r₁, children, he, hc, rfl⟩

/-- The node of a phrase is sound if its children are, and fit its kind. -/
theorem gives_phraseOf {k : Kind} {p : Parser Fragment}
    (hp : Gives (fun cs => (∀ text, Shape k text cs) ∧ ∀ c ∈ cs, isExempt k c = false → Sound c) p) :
    Gives ok (phraseOf k p) := by
  refine ⟨fun h => ?_⟩
  obtain ⟨extras, start, _, children, he, hc, rfl⟩ := phraseOf_found h
  obtain ⟨hshape, hchildren⟩ := hp.of_found hc
  simpa using ⟨ok_of_extras (gives_trivia.of_found he), sound_mk (fun _ => hshape _) hchildren⟩

/-! ## Single tokens -/

/-- A lexeme consists of its extras and one node, which is missing or covers the length that is found. -/
theorem lexeme_found {k : Kind} {length? : List Char → Option Nat} {s : Setting} {c c' : Cursor} {r r' : Nat}
    {a : Fragment} (h : lexeme k length? s c r = .found a c' r') :
    ∃ extras start r₁, trivia s c r = .found extras start r₁ ∧
      ((∃ place, a = extras ++ [.mk k none place true []]) ∨
        ∃ n, length? start.rest = some n ∧ c' = start.advance n ∧ a = extras ++ [start.nodeTo c' k []]) := by
  unfold lexeme at h
  obtain ⟨_, _, _, hs, h⟩ := bind_found.1 h
  cases hs
  obtain ⟨extras, start, r₁, he, h⟩ := bind_found.1 h
  obtain ⟨_, _, _, hs, h⟩ := bind_found.1 h
  cases hs
  refine ⟨extras, start, r₁, he, ?_⟩
  cases hm : missingAt? s.patches start.index k with
  | some place =>
    rw [hm] at h
    cases h
    exact .inl ⟨place, rfl⟩
  | none =>
    rw [hm] at h
    cases hn : length? start.rest with
    | none =>
      rw [hn] at h
      cases h
    | some n =>
      rw [hn] at h
      obtain ⟨_, _, _, hs, h⟩ := bind_found.1 h
      cases hs
      cases h
      exact .inr ⟨n, rfl, rfl, rfl⟩

/-- A token is what its recogniser takes. -/
theorem gives_lexeme {k : Kind} {length? : List Char → Option Nat}
    (h : ∀ cs n, length? cs = some n → Shape k (cs.take n) []) : Gives ok (lexeme k length?) := by
  refine ⟨fun hfound => ?_⟩
  obtain ⟨extras, start, _, he, ⟨place, rfl⟩ | ⟨n, hn, rfl, rfl⟩⟩ := lexeme_found hfound
  · simpa using ⟨ok_of_extras (gives_trivia.of_found he), sound_missing⟩
  · have hsound := sound_of_reads (Cursor.reads_advance n start) (fun _ => h start.rest n hn) (by simp)
    simpa using ⟨ok_of_extras (gives_trivia.of_found he), hsound⟩

/-- Kinds whose nodes may have any word for their text. -/
@[reducible] def takesWords : Kind → Bool
  | .form .propertyIdentifier | .form .shorthandPropertyIdentifier => true
  | k => k.isPlain

/-- Words are sound where words may stand. -/
theorem gives_wordWhere {k : Kind} {accept : String → Bool} (hk : takesWords k = true) :
    Gives ok (wordWhere k accept) := by
  refine gives_lexeme fun cs n h => ?_
  split at h
  · rename_i m hm
    have htext := (wordLength?_heads hm).take
    split at h <;> cases h
    unfold takesWords at hk
    split at hk
    · exact htext
    · exact htext
    · exact shape_of_isPlain hk _ _
  · cases h

/-! ## Ends of statements -/

/-- The extras before the end of a statement are sound. -/
theorem ok_breakAfter {patches : List Patch} {ending : Ending} {signature : Bool} {fuel : Nat} {c next : Cursor}
    {extras all : List Node} (he : ok (extras : Fragment))
    (h : breakAfter patches ending signature fuel c extras = some (all, next)) : ok (all : Fragment) := by
  fun_induction breakAfter patches ending signature fuel c extras with
  | case1 => cases h
  | case2 => cases h; exact he
  | case3 => cases h
  | case4 _ _ _ _ start _ n _ stop ih =>
    refine ih (ok_append.2 ⟨he, ?_⟩) h
    simpa using IsExtra.sound ⟨start, stop, .comment, .inl rfl, rfl⟩
  | case5 => cases h

theorem gives_pause {ending : Ending} : Gives ok (pause ending) := by
  refine ⟨fun h => ?_⟩
  unfold pause at h
  split at h
  · cases h
  · split at h
    · rename_i hb
      cases h
      exact ok_breakAfter ok_nil hb
    · cases h

theorem gives_signatureEnd : Gives ok signatureEnd := by
  have hmark : Gives ok (mark ";") := gives_lexeme fun _ _ _ => shape_of_isPlain rfl _ _
  refine ⟨fun h => ?_⟩
  unfold signatureEnd at h
  split at h
  · exact hmark.of_found h
  · split at h
    · rename_i hb
      cases h
      exact ok_breakAfter ok_nil hb
    · exact hmark.of_found h

/-! ## Instances -/

/-- A condition that holds by evaluation. -/
class Holds (b : Bool) : Prop where
  eq_true : b = true

instance : Holds true := ⟨rfl⟩

instance {b : Prop} [Decidable b] {f f' : Form} [Holds f.isPlain] [Holds f'.isPlain] :
    Holds (if b then f else f').isPlain := by
  split <;> infer_instance

/-- The value is as promised. -/
class Ok {α : Type} [Checked α] (a : α) : Prop where
  ok : Checked.ok a

/-- Every value that the parser finds is as promised. -/
class Yields {α : Type} [Checked α] (p : Parser α) : Prop where
  gives : Gives Checked.ok p

section Values

variable {n : Node} {as bs : Fragment} {l : Label} {f : Form}

instance {α : Type} [Checked α] (a : {a : α // Checked.ok a}) : Ok a.1 := ⟨a.2⟩

instance : Ok ([] : Fragment) := ⟨ok_nil⟩

instance [Ok n] [Ok as] : Ok (n :: as : Fragment) := ⟨ok_cons.2 ⟨Ok.ok (a := n), Ok.ok (a := as)⟩⟩

instance [Ok as] [Ok bs] : Ok (as ++ bs : Fragment) := ⟨ok_append.2 ⟨Ok.ok (a := as), Ok.ok (a := bs)⟩⟩

instance [Ok as] : Ok (labelLast l as) := ⟨ok_labelLast.2 (Ok.ok (a := as))⟩

instance [h : Ok n] : Ok (n.withLabel l) := ⟨sound_withLabel.2 h.ok⟩

instance [Holds f.isPlain] [Ok as] : Ok (f, as) := ⟨Holds.eq_true, Ok.ok (a := as)⟩

instance {b : Prop} [Decidable b] [Ok as] [Ok bs] : Ok (if b then as else bs : Fragment) := by
  split <;> infer_instance

instance [Holds f.isPlain] [h : Ok as] {a b : Cursor} : Ok (a.nodeTo b (.form f) as) :=
  ⟨sound_nodeTo (Holds.eq_true (b := f.isPlain)) h.ok⟩

end Values

section Combinators

variable {α β : Type} [Checked α] [Checked β] {a : α} {p q : Parser α}

instance {α : Type} (p : Parser α) : @Yields α uncheckedOf p := ⟨⟨fun _ => trivial⟩⟩

instance : Yields (Parser.fail : Parser α) := ⟨gives_fail⟩

instance {index : Nat} : Yields (Parser.refuse index : Parser α) := ⟨gives_refuse⟩

instance [Ok a] : Yields (Parser.pure a) := ⟨gives_parserPure.2 Ok.ok⟩

instance [Ok a] : Yields (pure a : Parser α) := ⟨gives_pure.2 Ok.ok⟩

/-- A sequence yields what is promised if both its parts do. -/
theorem yields_bind {f : α → Parser β} [Yields p] (h : ∀ a : {a : α // Checked.ok a}, Yields (f a.1)) :
    Yields (p >>= f) := ⟨gives_bind Yields.gives fun a ha => (h ⟨a, ha⟩).gives⟩

/-- So does a choice. -/
theorem yields_orElse {q : Unit → Parser α} (hp : Yields p) (hq : Yields (q ())) : Yields (p.orElse q) :=
  ⟨gives_orElse hp.gives hq.gives⟩

theorem yields_ite {b : Prop} [Decidable b] (hp : Yields p) (hq : Yields q) : Yields (if b then p else q) :=
  ⟨gives_ite hp.gives hq.gives⟩

theorem yields_firstOf {ps : List (Parser α)} (hp : Yields p) (hps : Yields (Parser.firstOf ps)) :
    Yields (Parser.firstOf (p :: ps)) := yields_orElse (q := fun _ => Parser.firstOf ps) hp hps

instance {f : α → Parser β} [Yields p] [h : ∀ a : {a : α // Checked.ok a}, Yields (f a.1)] : Yields (p >>= f) :=
  yields_bind h

instance {q : Unit → Parser α} [hp : Yields p] [hq : Yields (q ())] : Yields (p.orElse q) := yields_orElse hp hq

instance {b : Prop} [Decidable b] [hp : Yields p] [hq : Yields q] : Yields (if b then p else q) := yields_ite hp hq

instance : Yields (Parser.firstOf ([] : List (Parser α))) := ⟨gives_fail⟩

instance {ps : List (Parser α)} [hp : Yields p] [hps : Yields (Parser.firstOf ps)] :
    Yields (Parser.firstOf (p :: ps)) := yields_firstOf hp hps

instance {ι : Type} {is : List ι} {f : ι → Parser α} [h : ∀ i, Yields (f i)] : Yields (Parser.firstOf (is.map f)) := by
  refine ⟨gives_firstOf fun p hp => ?_⟩
  obtain ⟨i, -, rfl⟩ := List.mem_map.1 hp
  exact (h i).gives

instance {ps qs : List (Parser α)} [Yields (Parser.firstOf ps)] [Yields (Parser.firstOf qs)] :
    Yields (Parser.firstOf (ps ++ qs)) := by
  rw [firstOf_append]
  infer_instance

end Combinators

section Fragments

variable {p q : Parser Fragment} {ps : List (Parser Fragment)} {k : Kind} {f : Form} {l : Label}

instance : Yields (Parser.sequence []) := inferInstanceAs (Yields (pure []))

instance [Yields p] [Yields (Parser.sequence ps)] : Yields (Parser.sequence (p :: ps)) :=
  inferInstanceAs (Yields (do return (← p) ++ (← Parser.sequence ps)))

instance [Yields p] : Yields p.optional := inferInstanceAs (Yields (p.orElse fun _ => pure []))

instance [h : Yields p] : Yields p.many := ⟨⟨fun hf => (gives_repeatUpTo h.gives (by simp)).of_found hf⟩⟩

instance : Yields trivia := ⟨⟨fun h => ok_of_extras (gives_trivia.of_found h)⟩⟩

/-- A phrase of a plain kind is sound if its parser yields sound nodes. -/
theorem yields_phrase [Holds f.isPlain] (h : Yields p) : Yields (phrase f p) :=
  ⟨gives_phraseOf ⟨fun hf => ⟨fun text => shape_of_isPlain Holds.eq_true text _, fun c hc _ => h.gives.of_found hf c hc⟩⟩⟩

instance [Holds f.isPlain] [h : Yields p] : Yields (phrase f p) := yields_phrase h

instance {start : Cursor} {children : Fragment} [Holds f.isPlain] [Ok children] : Yields (extend start f children) := by
  unfold extend
  infer_instance

/-- A rule that goes on from the last node of what was read. -/
theorem yields_last (read : {a : Fragment // Checked.ok a}) {next : Node → Parser Fragment}
    (h : ∀ n : {n : Node // Checked.ok n}, Yields (next n.1)) :
    Yields (match read.1.reverse with
      | [] => Parser.fail
      | n :: _ => next n) := by
  split
  · infer_instance
  · rename_i n rest hr
    exact h ⟨n, sound_of_reverse hr read.2⟩

theorem yields_labelled (h : Yields p) : Yields (labelled l p) := by
  unfold labelled
  infer_instance

instance [h : Yields p] : Yields (labelled l p) := yields_labelled h

instance {length? : List Char → Option Nat} [Holds k.isPlain] : Yields (lexeme k length?) :=
  ⟨gives_lexeme fun _ _ _ => shape_of_isPlain Holds.eq_true _ _⟩

instance {spelling : String} : Yields (mark spelling) := inferInstanceAs (Yields (lexeme (.token spelling) _))

instance {spelling : String} {longer : List String} : Yields (markNot spelling longer) :=
  inferInstanceAs (Yields (lexeme (.token spelling) _))

instance {accept : String → Bool} [Holds (takesWords k)] : Yields (wordWhere k accept) :=
  ⟨gives_wordWhere Holds.eq_true⟩

instance {spelling : String} : Yields (keyword spelling) := inferInstanceAs (Yields (wordWhere (.token spelling) _))

instance [Holds (takesWords (.form f))] : Yields (word f) := inferInstanceAs (Yields (wordWhere (.form f) _))

instance {excluded : List String} [Holds (takesWords (.form f))] : Yields (wordExcept f excluded) :=
  inferInstanceAs (Yields (wordWhere (.form f) _))

instance : Yields markupComment := inferInstanceAs (Yields (lexeme (.form .htmlComment) _))

instance : Yields markupComments := inferInstanceAs (Yields markupComment.many)

instance [Yields p] [Yields q] : Yields (separated1 p q) := by
  unfold separated1
  infer_instance

instance [Yields p] : Yields (commaSeparated1 p) := inferInstanceAs (Yields (separated1 (mark ",") p))

instance [Yields p] : Yields (holeyList p) := by
  unfold holeyList
  infer_instance

instance [Yields p] : Yields (commaList p) := by
  unfold commaList
  infer_instance

instance {ending : Ending} : Yields (pause ending) := ⟨gives_pause⟩

instance {ending : Ending} : Yields (semicolon ending) := inferInstanceAs (Yields ((pause ending).orElse fun _ => mark ";"))

instance : Yields signatureEnd := ⟨gives_signatureEnd⟩

end Fragments

end ModuleMock.Script
