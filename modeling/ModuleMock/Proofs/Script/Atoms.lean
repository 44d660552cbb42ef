import ModuleMock.Proofs.Script.Tidy
import ModuleMock.Script.Grammar.Expressions

/-!
# Literals, names and pairs

The rules that build the forms about which `Shape` says something: strings, templates, numbers, names and pairs.
-/

namespace ModuleMock.Script

open ModuleMock.Syntax

namespace Grammar

/-! ## Strings -/

/-- A string that is read: what it consists of and where it ends. -/
theorem quoted_found {quote : Char} {s : Setting} {c c' : Cursor} {r r' : Nat} {a : Fragment}
    (h : quoted quote s c r = .found a c' r') :
    ∃ extras start r₁ cs close, trivia s c r = .found extras start r₁ ∧ start.rest = quote :: cs ∧
      mark (String.singleton quote) s (start.advance (1 + quotedTail quote cs.length cs)) r₁ = .found close c' r' ∧
      a = extras ++ [start.nodeTo c' (.form .string) (insideString close)] := by
  unfold quoted at h
  obtain ⟨extras, start, r₁, he, h⟩ := bind_found.1 h
  obtain ⟨_, _, _, hs, h⟩ := bind_found.1 h
  cases hs
  cases hr : start.rest with
  | nil => rw [hr] at h; cases h
  | cons x cs =>
    rw [hr] at h
    dsimp only at h
    split at h
    · cases h
    · rename_i hx
      obtain rfl : x = quote := by simpa using hx
      obtain ⟨_, _, _, hs, h⟩ := bind_found.1 h
      cases hs
      obtain ⟨close, _, _, hc, h⟩ := bind_found.1 h
      obtain ⟨_, _, _, hs, h⟩ := bind_found.1 h
      cases hs
      cases h
      exact ⟨extras, start, r₁, cs, close, he, hr, hc, rfl⟩

/-- The closing mark of a string in which nothing is skipped or missing is read after a gap. -/
theorem mark_reads {quote : Char} (hq : isLineEnd quote = false) {s : Setting} {c c' : Cursor} {r r' : Nat}
    {close : Fragment} (h : mark (String.singleton quote) s c r = .found close c' r')
    (hclose : ∀ n ∈ insideString close, n.hasFault = false) : ∃ gap, c.Reads (gap ++ [quote]) c' ∧ Gap gap := by
  obtain ⟨extras, start, _, he, ⟨place, rfl⟩ | ⟨n, hn, rfl, rfl⟩⟩ := lexeme_found h
  · have := hclose (.mk (.token (String.singleton quote)) none place true []) (by simp [insideString, Node.isMissing])
    simp [Node.hasFault] at this
  · have hstart := trivia_found he
    have hskip : ∀ x ∈ extras, x.isForm .error = false := fun x hx => by
      obtain ⟨a, b, f, hf, rfl⟩ := gives_trivia.of_found he x hx
      have := hclose _ (List.mem_filter.2 ⟨List.mem_append_left _ hx, by simp [Node.isNamed, Node.kind, Cursor.nodeTo]⟩)
      simpa [Node.isForm, Node.kind, Cursor.nodeTo, hasFault_eq_false] using this
    have hmark : start.rest.take 1 = [quote] ∧ n = 1 := by
      simp only [spellingLength?, String.toList_singleton, List.length_singleton] at hn
      split at hn <;> cases hn
      rename_i htake
      exact ⟨by simpa using htake, rfl⟩
    obtain ⟨htake, rfl⟩ := hmark
    obtain ⟨x, rest, hrest⟩ : ∃ x rest, start.rest = x :: rest := by
      cases hr : start.rest with
      | nil => simp [hr] at htake
      | cons x rest => exact ⟨x, rest, rfl⟩
    obtain rfl : x = quote := by simpa [hrest] using htake
    obtain ⟨gap, hgap, hg⟩ := skipTrivia_gap hq (s.size + 1) c [] (by rw [← hstart]; exact hrest)
      (by rw [← hstart]; exact hskip)
    rw [← hstart] at hgap
    exact ⟨gap, hgap.trans (htake ▸ Cursor.reads_advance 1 start), hg⟩

/-- Strings are read as sound nodes. -/
theorem gives_quoted {quote : Char} (hq : quote = '"' ∨ quote = '\'') : Gives ok (quoted quote) := by
  refine ⟨fun h => ?_⟩
  obtain ⟨extras, start, _, cs, close, he, hrest, hclose, rfl⟩ := quoted_found h
  have hmark : Gives ok (mark (String.singleton quote)) := Yields.gives
  have hchildren : ∀ n ∈ insideString close, Sound n := fun n hn =>
    hmark.of_found hclose n (List.mem_filter.1 hn).1
  refine ok_append.2 ⟨ok_of_extras (gives_trivia.of_found he), ok_cons.2 ⟨fun hfault => ?_, ok_nil⟩⟩
  have hfaultless := (hasFault_eq_false.1 hfault).2.2
  obtain ⟨gap, hgap, hg⟩ := mark_reads (by rcases hq with rfl | rfl <;> decide) hclose hfaultless
  have hbody := (quotedTail_heads hq cs.length cs).take
  have hopen := Cursor.reads_advance (1 + quotedTail quote cs.length cs) start
  rw [hrest, Nat.add_comm, List.take_succ_cons, Nat.add_comm] at hopen
  have hline : ∀ c ∈ gap.head?, c = '\n' ∨ c = '\r' := by
    intro c hc
    have hrest : cs.drop (quotedTail quote cs.length cs) =
        (start.advance (1 + quotedTail quote cs.length cs)).rest := by
      have hread := hopen.1
      rw [hrest, List.cons_append, List.cons_inj_right] at hread
      nth_rewrite 1 [← List.take_append_drop (quotedTail quote cs.length cs) cs] at hread
      exact List.append_cancel_left hread
    have hstop := head?_drop_quotedTail cs.length cs (Nat.le_refl _) c
      (by rw [hrest, hgap.1, List.append_assoc]; exact List.mem_head?_append_of_mem_head? hc)
    exact hg.line_of_head? hq hc hstop
  have htoken := StringSpelling.intro hq hbody hg hline
  refine sound_of_reads (hopen.trans hgap) (fun _ => ?_) (fun n hn _ => hchildren n hn) hfault
  simpa [Shape] using htoken

instance : Yields string := ⟨gives_orElse (gives_quoted (.inl rfl)) (gives_quoted (.inr rfl))⟩

/-! ## Templates -/

/-- What the parser finds from a cursor on, and where that leads. -/
structure Leads {α : Type} (c : Cursor) (Q : α → Cursor → Prop) (p : Parser α) : Prop where
  of_found : ∀ {s : Setting} {c' : Cursor} {r r' : Nat} {a : α}, p s c r = .found a c' r' → Q a c'

section Leads

variable {α β : Type} {c : Cursor} {Q : α → Cursor → Prop}

theorem leads_refuse {index : Nat} : Leads c Q (Parser.refuse index) := ⟨fun h => by cases h⟩

theorem leads_here {f : Cursor → Parser α} (h : Leads c Q (f c)) : Leads c Q (Parser.here >>= f) :=
  ⟨fun hf => h.of_found hf⟩

theorem leads_moveTo {c₁ : Cursor} {f : Unit → Parser α} (h : Leads c₁ Q (f ())) :
    Leads c Q (Parser.moveTo c₁ >>= f) := ⟨fun hf => h.of_found hf⟩

/-- What a sequence leads to, if its first parser gives what the second needs. -/
theorem leads_bind {p : Parser β} {f : β → Parser α} {P : β → Prop} (hp : Gives P p)
    (hf : ∀ b c₁, P b → Leads c₁ Q (f b)) : Leads c Q (p >>= f) := by
  refine ⟨fun h => ?_⟩
  obtain ⟨b, c₁, _, hb, h⟩ := bind_found.1 h
  exact (hf b c₁ (hp.of_found hb)).of_found h

theorem leads_pure {a : α} (h : Q a c) : Leads c Q (pure a) := ⟨fun hf => by cases hf; exact h⟩

end Leads

/-- The parts of a template contain a substitution, or they are all of its text. -/
def PartsTo (f : Form) (c : Cursor) (read a : Fragment) (c' : Cursor) : Prop :=
  ∃ more, a = read ++ more ∧
    ((∃ n ∈ more, n.isForm f) ∨ ∃ body, c.Reads (body ++ ['`']) c' ∧ Body IsTemplateChar body)

/-- Template text grows by each piece that is read. -/
theorem PartsTo.step {f : Form} {c c₁ c' : Cursor} {read a : Fragment} {t : List Char} (hr : c.Reads t c₁)
    (ht : ∀ body, Body IsTemplateChar body → Body IsTemplateChar (t ++ body)) (h : PartsTo f c₁ read a c') :
    PartsTo f c read a c' := by
  obtain ⟨more, ha, hn | ⟨body, hb, hbody⟩⟩ := h
  · exact ⟨more, ha, .inl hn⟩
  · exact ⟨more, ha, .inr ⟨t ++ body, by simpa using hr.trans hb, ht body hbody⟩⟩

/-- Reading the parts of a template leads to its closing mark. -/
theorem leads_templateParts {f : Form} {inner : Parser Fragment} : ∀ (fuel : Nat) (read : Fragment) (c : Cursor),
    Leads c (PartsTo f c read) (templateParts f inner fuel read)
  | 0, read, c => ⟨fun h => by cases h⟩
  | fuel + 1, read, c => by
    unfold templateParts
    refine leads_here ?_
    split
    · exact leads_refuse
    · rename_i rest hrest
      have hstep := Cursor.reads_advance 1 c
      rw [hrest] at hstep
      exact leads_moveTo (leads_pure ⟨[], by simp, .inr ⟨[], hstep, .nil⟩⟩)
    · have hpart : Gives (fun part : Fragment => ∃ n ∈ part, n.isForm f)
          (phrase f (Parser.sequence [mark "$\x7b", inner, mark "\x7d"])) := by
        refine ⟨fun h => ?_⟩
        obtain ⟨extras, start, _, children, -, -, rfl⟩ := phraseOf_found h
        exact ⟨_, List.mem_append_right _ List.mem_cons_self, beq_self_eq_true _⟩
      refine leads_bind hpart fun part c₁ ⟨n, hn, hf⟩ => ⟨fun h => ?_⟩
      obtain ⟨more, rfl, -⟩ := (leads_templateParts fuel (read ++ part) c₁).of_found h
      exact ⟨part ++ more, by simp, .inl ⟨n, List.mem_append_left _ hn, hf⟩⟩
    · split
      · rename_i n hn
        have hescape := (escapeLength?_heads (P := IsTemplateChar) (fun d hd => ⟨?_, ?_⟩) hn).take
        · refine leads_moveTo ⟨fun h => ?_⟩
          exact ((leads_templateParts fuel read _).of_found h).step (Cursor.reads_advance n c) hescape
        · exact ne_of_isEscapeRest hd (by decide) (by decide) (by decide)
        · exact ne_of_isEscapeRest hd (by decide) (by decide) (by decide)
      · exact leads_refuse
    · rename_i x rest hquote _ hescape hrest
      have hstep := Cursor.reads_advance 1 c
      rw [hrest] at hstep
      refine leads_moveTo ⟨fun h => ?_⟩
      exact ((leads_templateParts fuel read _).of_found h).step hstep fun body hb => .plain ⟨hquote, hescape⟩ hb

/-- The parts of a template are sound if its substitutions are. -/
theorem gives_templateParts {f : Form} (hf : f.isPlain = true) {inner : Parser Fragment} (hi : Yields inner) :
    ∀ (fuel : Nat) (read : Fragment), ok read → Gives ok (templateParts f inner fuel read)
  | 0, read, _ => gives_fail
  | fuel + 1, read, hr => by
    have : Holds f.isPlain := ⟨hf⟩
    have hpart : Gives ok (phrase f (Parser.sequence [mark "$\x7b", inner, mark "\x7d"])) := Yields.gives
    have hmove : ∀ c, Gives (fun _ => True) (Parser.moveTo c) := fun _ => ⟨fun _ => trivial⟩
    unfold templateParts
    refine gives_bind (P := fun _ => True) ⟨fun _ => trivial⟩ fun c _ => ?_
    split
    · exact gives_refuse
    · exact gives_bind (hmove _) fun _ _ => gives_pure.2 hr
    · exact gives_bind hpart fun part hp => gives_templateParts hf hi fuel _ (ok_append.2 ⟨hr, hp⟩)
    · split
      · exact gives_bind (hmove _) fun _ _ => gives_templateParts hf hi fuel read hr
      · exact gives_refuse
    · exact gives_bind (hmove _) fun _ _ => gives_templateParts hf hi fuel read hr

/-- A template without substitutions is a token. -/
theorem gives_templateOf {whole part : Form} {inner : Parser Fragment} (hp : part.isPlain = true) (hi : Yields inner)
    (hs : ∀ t cs, ((∃ n ∈ cs, Node.isForm part n) ∨ TemplateToken t) → Shape (.form whole) t cs) :
    Gives ok (templateOf whole part inner) := by
  refine ⟨fun {s c c' r r' a} h => ?_⟩
  obtain ⟨extras, start, _, children, he, hc, rfl⟩ := phraseOf_found h
  have hchildren : ok children := by
    refine Gives.of_found (gives_bind (P := fun _ => True) ⟨fun _ => trivial⟩ fun c _ => ?_) hc
    split
    · exact gives_bind (P := fun _ => True) ⟨fun _ => trivial⟩ fun _ _ => gives_templateParts hp hi _ _ ok_nil
    · exact gives_refuse
  have htext : (∃ n ∈ children, Node.isForm part n) ∨ ∃ t, start.Reads t c' ∧ TemplateToken t := by
    refine Leads.of_found (Q := fun cs c' => (∃ n ∈ cs, Node.isForm part n) ∨ ∃ t, start.Reads t c' ∧ TemplateToken t)
      (leads_here ?_) hc
    split
    · rename_i rest hrest
      have hopen := Cursor.reads_advance 1 start
      rw [hrest] at hopen
      refine leads_moveTo ⟨fun h => ?_⟩
      obtain ⟨more, rfl, hn | ⟨body, hb, hbody⟩⟩ := (leads_templateParts _ _ _).of_found h
      · exact .inl hn
      · exact .inr ⟨_, hopen.trans hb, .intro hbody⟩
    · exact leads_refuse
  refine ok_append.2 ⟨ok_of_extras (gives_trivia.of_found he), ok_cons.2 ⟨?_, ok_nil⟩⟩
  rcases htext with hn | ⟨t, hr, ht⟩
  · exact sound_mk (fun _ => hs _ _ (.inl hn)) fun n hm _ => hchildren n hm
  · exact sound_of_reads hr (fun _ => hs _ _ (.inr ht)) fun n hm _ => hchildren n hm

instance {g : Grammar} [Yields (g (.expressions .bracketed))] : Yields (template g) := by
  refine ⟨gives_templateOf rfl inferInstance fun t cs h hnone => ?_⟩
  rcases h with ⟨n, hn, hf⟩ | ht
  · exact absurd hf (by rw [hnone n hn]; decide)
  · exact ht

/-! ## Numbers and names -/

instance : Yields number := ⟨gives_lexeme fun _ _ h => (numberLength?_heads h).take⟩

instance : Yields privateName := ⟨gives_lexeme fun _ _ h => (privateNameLength?_heads h).take⟩

instance : Yields regex := inferInstanceAs (Yields (lexeme (.form .regex) _))

instance : Yields anyIdentifier := inferInstanceAs (Yields (word .identifier))

instance {g : Grammar} [Yields (g (.expression .bracketed))] : Yields (propertyName g) := by
  unfold propertyName
  infer_instance

instance : Yields exportName := by
  unfold exportName
  infer_instance

/-! ## Pairs -/

/-- Comments, and one node after them. -/
def Ends (P : Node → Prop) (a : Fragment) : Prop := ∃ extras n, a = extras ++ [n] ∧ (∀ x ∈ extras, IsExtra x) ∧ P n

/-- A phrase ends with its node. -/
theorem gives_ends_phrase {f : Form} {p : Parser Fragment} : Gives (Ends (Node.isForm f ·)) (phrase f p) := by
  refine ⟨fun h => ?_⟩
  obtain ⟨extras, start, _, children, he, -, rfl⟩ := phraseOf_found h
  exact ⟨extras, _, rfl, gives_trivia.of_found he, beq_self_eq_true _⟩

/-- A lexeme ends with its node. -/
theorem gives_ends_lexeme {f : Form} {length? : List Char → Option Nat} :
    Gives (Ends (Node.isForm f ·)) (lexeme (.form f) length?) := by
  refine ⟨fun h => ?_⟩
  obtain ⟨extras, start, _, he, ⟨place, rfl⟩ | ⟨n, -, rfl, rfl⟩⟩ := lexeme_found h
  · exact ⟨extras, _, rfl, gives_trivia.of_found he, beq_self_eq_true _⟩
  · exact ⟨extras, _, rfl, gives_trivia.of_found he, beq_self_eq_true _⟩

theorem gives_ends_word {f : Form} : Gives (Ends (Node.isForm f ·)) (word f) := by
  unfold word wordWhere
  exact gives_ends_lexeme

/-- A string ends with its node. -/
theorem gives_ends_quoted {quote : Char} : Gives (Ends (Node.isForm .string ·)) (quoted quote) := by
  refine ⟨fun h => ?_⟩
  obtain ⟨extras, start, _, cs, close, he, -, -, rfl⟩ := quoted_found h
  exact ⟨extras, _, rfl, gives_trivia.of_found he, beq_self_eq_true _⟩

/-- The name of a member is a key. -/
theorem gives_propertyName {g : Grammar} : Gives (Ends (·.isKey)) (propertyName g) := by
  have key {f : Form} {p : Parser Fragment} (hp : Gives (Ends (Node.isForm f ·)) p)
      (hf : ∀ n : Node, n.isForm f → n.isKey) : Gives (Ends (·.isKey)) p :=
    hp.imp fun _ ⟨extras, n, ha, he, hn⟩ => ⟨extras, n, ha, he, hf n hn⟩
  refine gives_firstOf fun p hp => ?_
  simp only [List.mem_cons, List.not_mem_nil, or_false] at hp
  obtain rfl | rfl | rfl | rfl | rfl := hp
  · exact key gives_ends_word fun n hn => by simp [Node.isKey, hn]
  · exact key (f := .privatePropertyIdentifier) gives_ends_lexeme fun n hn => by simp [Node.isKey, hn]
  · exact key (gives_orElse gives_ends_quoted gives_ends_quoted) fun n hn => by simp [Node.isKey, hn]
  · exact key (f := .number) gives_ends_lexeme fun n hn => by simp [Node.isKey, hn]
  · exact key gives_ends_phrase fun n hn => by simp [Node.isKey, hn]

/-- The first child with a label is the one that got it, if only comments stand before. -/
theorem find?_labelLast {l : Label} {extras more : Fragment} {n : Node} (he : ∀ x ∈ extras, IsExtra x) :
    (labelLast l (extras ++ [n]) ++ more).find? (fun c => c.label == some l) = some (n.withLabel l) := by
  have hextras : extras.find? (fun c => c.label == some l) = none := by
    rw [List.find?_eq_none]
    intro x hx
    simp [(he x hx).label]
  have hn : (n.withLabel l).label = some l := by cases n; rfl
  simp [labelLast, List.find?_append, hextras, hn]

instance {g : Grammar} [Yields (g (.expression .bracketed))] : Yields (pair g) := by
  refine ⟨gives_phraseOf ⟨fun {s c c' r r' cs} h => ⟨fun _ key hkey => ?_, fun n hn _ => ?_⟩⟩⟩
  · obtain ⟨first, c₁, r₁, more, hfirst, -, rfl⟩ := sequence_found h
    obtain ⟨name, _, _, hname, hpure⟩ := bind_found.1 hfirst
    cases hpure
    obtain ⟨extras, n, rfl, he, hn⟩ := gives_propertyName.of_found hname
    rw [find?_labelLast he] at hkey
    obtain rfl := Option.some.inj hkey
    cases n
    exact hn
  · have hall : Gives ok (Parser.sequence [labelled .key (propertyName g), mark ":",
      labelled .value (g (.expression .bracketed))]) := Yields.gives
    exact hall.of_found h n hn

end Grammar

end ModuleMock.Script
