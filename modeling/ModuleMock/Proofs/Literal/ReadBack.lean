import ModuleMock.Proofs.Literal.Reader

/-!
# Written literals read back

The value of an expression is told from its tree (`valueWith`): strings by what they stand for, arrays by the places
between their commas, objects by their fixed keys, wrappers by what they hold and names by the initial values of their
variables (`value`). What has no literal form is `undefined`.

The writer does not know comments that begin with a markup mark: it takes them for elements of an array, and for the
contents of a wrapper. Read in that way, an expression has an `apparent` value. The written form is always read as the
apparent value, and there is one exactly if that is defined; so it is read as the value exactly if the two values agree
(`serialize_readBack`). They do if each markup comment in an array stands for a hole and none stands before the value in
a wrapper (`isClear`), and they need not otherwise (`serialize_markupComment`). All this holds for tidy trees, which is
what the parser gives when it finds no fault (`Script.sound_parse`).
-/

namespace ModuleMock.Literal

open Syntax Script

/-! ## Values of expressions -/

/-- Comments of either kind. -/
def isRemark (n : Node) : Bool := n.isForm .comment || n.isForm .htmlComment

/-- Comments as the writer knows them. -/
def isPlainRemark (n : Node) : Bool := n.isForm .comment

/-- One more value at the head of the first place. -/
def addFirst (v : Datum) : List (List Datum) → List (List Datum)
  | [] => [[v]]
  | place :: places => (v :: place) :: places

/-- The elements of an array, given what stands in the places between its commas: an empty place is a hole, except after
the last comma. -/
def elements : List (List Datum) → List Datum
  | [] => []
  | [last] => last
  | [] :: places => .undefined :: elements places
  | place :: places => place ++ elements places

section Values

variable (remark : Node → Bool) (nameValue : String → Datum)

mutual

/-- The value of an expression, given which nodes are comments and the values of the names. -/
def valueWith : Node → Datum
  | .mk k l e m cs =>
    let n : Node := .mk k l e m cs
    match k with
    | .form .string => .string (cook n.stringValue.toList)
    | .form .templateString =>
      if cs.any (·.isForm .templateSubstitution) then .undefined else .string (cook n.stringValue.toList)
    | .form .number => .number n.text
    | .form .trueWord => .boolean true
    | .form .falseWord => .boolean false
    | .form .array => .array (elements (places cs))
    | .form .object => .object (members cs)
    | .form .identifier => nameValue n.text
    | .form .parenthesizedExpression => contents cs
    | .form .asExpression => contents cs
    | .form .satisfiesExpression => contents cs
    | .form .nonNullExpression => contents cs
    | _ => .undefined

/-- The value of what a wrapper holds. -/
def contents : List Node → Datum
  | [] => .undefined
  | c :: cs => if c.isNamed && !remark c then valueWith c else contents cs

/-- What stands in the places between the commas of an array. -/
def places : List Node → List (List Datum)
  | [] => [[]]
  | c :: cs =>
    if c.kind = .token "[" ∨ c.kind = .token "]" ∨ remark c then places cs
    else if c.kind = .token "," then [] :: places cs
    else addFirst (valueWith c) (places cs)

/-- The members of an object with fixed keys. -/
def members : List Node → List (String × Datum)
  | [] => []
  | .mk k l e m cs :: rest =>
    let n : Node := .mk k l e m cs
    match k with
    | .form .pair =>
      match n.child? .key, memberValue cs with
      | some key, some v =>
        if key.isForm .computedPropertyName then members rest else (key.text, v) :: members rest
      | _, _ => members rest
    | .form .shorthandPropertyIdentifier => (n.text, nameValue n.text) :: members rest
    | _ => members rest

def memberValue : List Node → Option Datum
  | [] => none
  | c :: cs => if c.label = some .value then some (valueWith c) else memberValue cs

end

end Values

/-- The names of a table that are not being followed. -/
def pending (table : DeclarationTable) (resolving : List String) : Nat :=
  (table.filter fun p => p.1 ∉ resolving).length

theorem mem_of_lookup {table : DeclarationTable} {name : String} {d : Declaration} (h : table.lookup name = some d) :
    (name, d) ∈ table := by
  obtain ⟨before, after, rfl, -⟩ := List.lookup_eq_some_iff.1 h
  simp

/-- Following a name leaves fewer names to follow. -/
theorem pending_cons_lt {table : DeclarationTable} {resolving : List String} {name : String} {d : Declaration}
    (h : table.lookup name = some d) (hname : name ∉ resolving) :
    pending table (name :: resolving) < pending table resolving := by
  have hfilter : (table.filter fun p => p.1 ∉ name :: resolving) =
      (table.filter fun p => p.1 ∉ resolving).filter fun p => p.1 ≠ name := by
    rw [List.filter_filter]
    refine List.filter_congr fun p _ => ?_
    simp [not_or]
  rw [pending, pending, hfilter, List.length_filter_lt_length_iff_exists]
  exact ⟨(name, d), List.mem_filter.2 ⟨mem_of_lookup h, by simpa using hname⟩, by simp⟩

/-- The value of an expression while the listed names are being followed: a name among them has none, and another one
has the value that its variable is given first. -/
def valueIn (remark : Node → Bool) (table : DeclarationTable) (resolving : List String) (n : Node) : Datum :=
  valueWith remark (fun name =>
    if _hname : name ∈ resolving then .undefined
    else
      match _hl : table.lookup name with
      | some (.variable _ (some init)) => valueIn remark table (name :: resolving) init
      | _ => .undefined) n
termination_by pending table resolving
decreasing_by exact pending_cons_lt _hl _hname

/-- The value of an expression. -/
def value (table : DeclarationTable) (n : Node) : Datum := valueIn isRemark table [] n

/-- The value of an expression if markup comments are no comments. -/
def apparent (table : DeclarationTable) (n : Node) : Datum := valueIn isPlainRemark table [] n

/-! ## Legible trees -/

mutual

/-- No text of the tree has a carriage return. -/
def returnFree : Node → Bool
  | .mk _ _ e _ cs => !e.text.toList.contains '\r' && returnFreeAll cs

def returnFreeAll : List Node → Bool
  | [] => true
  | c :: cs => returnFree c && returnFreeAll cs

end

/-- Forms in whose children a literal is looked for. -/
def holdsLiterals : Form → Bool
  | .array | .object | .pair | .parenthesizedExpression | .asExpression | .satisfiesExpression
  | .nonNullExpression => true
  | _ => false

theorem returnFreeAll_iff (cs : List Node) : returnFreeAll cs = true ↔ ∀ c ∈ cs, returnFree c = true := by
  induction cs with
  | nil => simp [returnFreeAll]
  | cons c cs ih => simp [returnFreeAll, ih]

/-- Trees without faults and carriage returns. -/
structure Legible (n : Node) : Prop where
  tidy : Tidy n
  returnFree : returnFree n = true

namespace Legible

variable {f : Form} {l : Option Label} {e : Extent} {m : Bool} {cs : List Node}

theorem no_return {k : Kind} (h : Legible (.mk k l e m cs)) : '\r' ∉ e.text.toList := by
  have := h.returnFree
  simp only [Literal.returnFree, Bool.and_eq_true] at this
  simpa using this.1

/-- What a literal holds is legible with it. -/
theorem children (h : Legible (.mk (.form f) l e m cs)) (hf : holdsLiterals f = true) : ∀ c ∈ cs, Legible c := by
  have hreturn := h.returnFree
  simp only [Literal.returnFree, Bool.and_eq_true, returnFreeAll_iff] at hreturn
  intro c hc
  refine ⟨tidy_children h.tidy ?_ c hc, hreturn.2 c hc⟩
  rintro ⟨⟩
  cases hf

end Legible

/-! ## Reading back -/

/-- A written form and a value belong together: there is none for `undefined`, and any other is read as the value. -/
inductive Matches : Option String → Datum → Prop
  | missing : Matches none .undefined
  | written {text : String} {v : Datum} (h : Reads text v) (hv : v ≠ .undefined) : Matches (some text) v

theorem Matches.reads {form : Option String} {v : Datum} (h : Matches form v) : Reads (form.getD absent) v := by
  cases h with
  | missing => exact reads_absent
  | written h _ => exact h

/-- A string is written as what it stands for. -/
theorem matches_stringForm {n : Node} (h : StringSpelling n.text.toList) (hcr : '\r' ∉ n.text.toList) :
    Matches (some (stringForm n)) (.string (cook n.stringValue.toList)) := by
  refine .written ?_ (by simp)
  generalize ht : n.text.toList = text at h hcr
  cases h with
  | @intro quote body gap hq hb hg _ =>
    unfold stringForm
    rw [stringValue_of_text ht, ht]
    refine reads_requote (hq.imp_right .inl) ?_ ?_
    · rw [String.toList_ofList]
      exact (hb.mono fun c hc => hc.2.1).append hg.body
    · rw [String.toList_ofList]
      exact fun hm => hcr (List.mem_cons_of_mem _ (List.mem_append_left _ hm))

/-- So is a template without substitutions. -/
theorem matches_template {n : Node} (h : TemplateToken n.text.toList) (hcr : '\r' ∉ n.text.toList) :
    Matches (some (requote '`' n.stringValue)) (.string (cook n.stringValue.toList)) := by
  refine .written ?_ (by simp)
  generalize ht : n.text.toList = text at h hcr
  cases h with
  | @intro body hb =>
    rw [stringValue_of_text ht]
    refine reads_requote (.inr (.inr rfl)) ?_ ?_
    · rw [String.toList_ofList]
      exact hb.mono fun c hc => hc.2
    · rw [String.toList_ofList]
      exact fun hm => hcr (List.mem_cons_of_mem _ (List.mem_append_left _ hm))

theorem places_ne_nil (remark : Node → Bool) (nameValue : String → Datum) (cs : List Node) :
    places remark nameValue cs ≠ [] := by
  induction cs with
  | nil => simp [places]
  | cons c cs ih =>
    rw [places]
    split
    · exact ih
    · split
      · simp
      · cases places remark nameValue cs <;> simp [addFirst]

/-- The elements of an array from a place on that has some already. -/
def openElements : List (List Datum) → List Datum
  | [] => []
  | place :: places => place ++ elements places

/-- The first element of a place, if nothing has stood in it so far. -/
theorem elements_addFirst (v : Datum) : ∀ places : List (List Datum), places ≠ [] →
    elements (addFirst v places) = v :: openElements places
  | [], h => absurd rfl h
  | [place], _ => by simp [addFirst, elements, openElements]
  | place :: next :: places, _ => by simp [addFirst, elements, openElements]

/-- The first element of a place in which something has stood already. -/
theorem openElements_addFirst (v : Datum) : ∀ places : List (List Datum), places ≠ [] →
    openElements (addFirst v places) = v :: openElements places
  | [], h => absurd rfl h
  | place :: places, _ => by simp [addFirst, openElements]

/-- A place that a comma ends with nothing in it is a hole. -/
theorem elements_nil_cons : ∀ {places : List (List Datum)}, places ≠ [] →
    elements ([] :: places) = .undefined :: elements places
  | [], h => absurd rfl h
  | _ :: _, _ => rfl

section Serialize

variable {follow : String → Option String} {nameValue : String → Datum}

/-- A fixed key of a legible pair is read as a key. -/
theorem isKey_of_legible {key : Node} (h : Legible key) (hkey : key.isKey = true)
    (hc : key.isForm .computedPropertyName = false) : IsKey key.text := by
  obtain ⟨k, l, e, m, cs⟩ := key
  have hshape := shape_of_tidy h.tidy
  simp only [Node.isKey, hc, Bool.or_false, Bool.or_eq_true] at hkey
  simp only [Node.isForm, Node.kind, beq_iff_eq] at hkey
  obtain ((rfl | rfl) | rfl) | rfl := hkey
  · exact .inl (isPlainKey_of_word hshape)
  · exact .inl (isPlainKey_of_private hshape)
  · exact .inr ⟨hshape, h.no_return⟩
  · exact .inl (isPlainKey_of_number hshape)

mutual

/-- The written form stands for the apparent value, if it does so for the names. -/
theorem matches_serializeWith (hfollow : ∀ name, Matches (follow name) (nameValue name)) : ∀ n : Node, Legible n →
    Matches (serializeWith follow n) (valueWith isPlainRemark nameValue n)
  | .mk k l e m cs, h => by
    have hshape := shape_of_tidy h.tidy
    -- the cases are those of the writer, and the value is unfolded in each of them
    rw [serializeWith.eq_def]
    dsimp only
    split
    · rw [valueWith]
      exact matches_stringForm hshape h.no_return
    · rw [valueWith]
      split
      · exact .missing
      · rename_i hnone
        refine matches_template (hshape fun c hc => ?_) h.no_return
        simpa using fun hf => hnone (List.any_eq_true.2 ⟨c, hc, hf⟩)
    · rw [valueWith]
      exact .written (reads_number hshape) (by simp)
    · rw [valueWith]
      exact .written reads_true (by simp)
    · rw [valueWith]
      exact .written reads_false (by simp)
    · rw [valueWith]
      refine .written (reads_array ?_) (by simp)
      exact (reads_arrayItems hfollow cs (h.children rfl)).1
    · rw [valueWith]
      exact .written (reads_object (reads_objectEntries hfollow cs (h.children rfl))) (by simp)
    · rw [valueWith]
      exact hfollow _
    iterate 4
      rw [valueWith]
      exact matches_serializeFirst hfollow cs (h.children rfl)
    · rw [valueWith]
      · exact .missing
      all_goals assumption

theorem matches_serializeFirst (hfollow : ∀ name, Matches (follow name) (nameValue name)) : ∀ cs : List Node,
    (∀ c ∈ cs, Legible c) → Matches (serializeFirst follow cs) (contents isPlainRemark nameValue cs)
  | [], _ => .missing
  | c :: cs, h => by
    rw [serializeFirst, contents, isPlainRemark]
    split
    · exact matches_serializeWith hfollow c (h c List.mem_cons_self)
    · exact matches_serializeFirst hfollow cs fun d hd => h d (List.mem_cons_of_mem _ hd)

/-- The elements that are written are those of the places, after a comma and after an element. -/
theorem reads_arrayItems (hfollow : ∀ name, Matches (follow name) (nameValue name)) : ∀ cs : List Node,
    (∀ c ∈ cs, Legible c) →
    List.Forall₂ Reads (arrayItems follow true cs) (elements (places isPlainRemark nameValue cs)) ∧
      List.Forall₂ Reads (arrayItems follow false cs) (openElements (places isPlainRemark nameValue cs))
  | [], _ => ⟨.nil, .nil⟩
  | c :: cs, h => by
    have ih := reads_arrayItems hfollow cs fun d hd => h d (List.mem_cons_of_mem _ hd)
    have hne := places_ne_nil isPlainRemark nameValue cs
    have hremark : isPlainRemark c = true ↔ c.kind = .form .comment := beq_iff_eq
    rw [arrayItems, arrayItems, places]
    simp only [hremark]
    split
    · exact ih
    · split
      · rw [if_pos trivial, if_neg (by decide), elements_nil_cons hne]
        exact ⟨.cons reads_absent ih.1, ih.1⟩
      · have hitem := (matches_serializeWith hfollow c (h c List.mem_cons_self)).reads
        rw [elements_addFirst _ _ hne, openElements_addFirst _ _ hne]
        exact ⟨.cons hitem ih.2, .cons hitem ih.2⟩

theorem reads_objectEntries (hfollow : ∀ name, Matches (follow name) (nameValue name)) : ∀ cs : List Node,
    (∀ c ∈ cs, Legible c) → List.Forall₂ ReadsMember (objectEntries follow cs) (members isPlainRemark nameValue cs)
  | [], _ => .nil
  | .mk k l e m cs :: rest, h => by
    have hn := h _ List.mem_cons_self
    have hshape := shape_of_tidy hn.tidy
    have ih := reads_objectEntries hfollow rest fun d hd => h d (List.mem_cons_of_mem _ hd)
    rw [objectEntries.eq_def]
    dsimp only
    split
    · rw [members]
      have hchildren := hn.children rfl
      have hvalue := reads_memberForm hfollow cs hchildren
      generalize memberForm follow cs = form, memberValue isPlainRemark nameValue cs = v at hvalue ⊢
      cases hkey : (Node.mk (.form .pair) l e m cs).child? .key with
      | none => exact ih
      | some key =>
        cases hvalue with
        | none => exact ih
        | some hvalue =>
          dsimp only
          split
          · exact ih
          · rename_i hc
            have hlegible := hchildren key (List.mem_of_find?_eq_some hkey)
            exact .cons ⟨_, rfl, isKey_of_legible hlegible (hshape key hkey) (by simpa using hc), hvalue⟩ ih
    · rw [members]
      exact .cons ⟨_, rfl, .inl (isPlainKey_of_word hshape), (hfollow _).reads⟩ ih
    · rw [members]
      · exact ih
      all_goals assumption

theorem reads_memberForm (hfollow : ∀ name, Matches (follow name) (nameValue name)) : ∀ cs : List Node,
    (∀ c ∈ cs, Legible c) → Option.Rel Reads (memberForm follow cs) (memberValue isPlainRemark nameValue cs)
  | [], _ => .none
  | c :: cs, h => by
    rw [memberForm, memberValue]
    split
    · exact .some (matches_serializeWith hfollow c (h c List.mem_cons_self)).reads
    · exact reads_memberForm hfollow cs fun d hd => h d (List.mem_cons_of_mem _ hd)

end

end Serialize

/-! ## Names -/

/-- The initial values of all variables of a table are legible. -/
def LegibleTable (table : DeclarationTable) : Prop :=
  ∀ name node init, table.lookup name = some (.variable node (some init)) → Legible init

/-- Following names with a budget gives the apparent value, if the budget is enough for the names that are left. -/
theorem matches_serializeWithin {table : DeclarationTable} (ht : LegibleTable table) :
    ∀ (budget : Nat) (resolving : List String) (n : Node), pending table resolving ≤ budget → Legible n →
      Matches (serializeWithin table budget resolving n) (valueIn isPlainRemark table resolving n)
  | 0, resolving, n, hbudget, hn => by
    rw [serializeWithin, valueIn]
    refine matches_serializeWith (fun name => ?_) n hn
    split
    · exact .missing
    · rename_i hname
      split
      · rename_i node init hl
        exact absurd (pending_cons_lt hl hname) (by omega)
      · exact .missing
  | budget + 1, resolving, n, hbudget, hn => by
    rw [serializeWithin, valueIn]
    refine matches_serializeWith (fun name => ?_) n hn
    by_cases hname : name ∈ resolving
    · rw [if_pos hname, dif_pos hname]
      exact .missing
    · rw [if_neg hname, dif_neg hname]
      rcases hl : table.lookup name with _ | (⟨node, _ | init⟩ | _ | _)
      · exact .missing
      · exact .missing
      · have hlt := pending_cons_lt hl hname
        exact matches_serializeWithin ht budget (name :: resolving) init (by omega) (ht name node init hl)
      · exact .missing
      · exact .missing

/-! ## Markup comments -/

/-- What is known of a place in an array: nothing stands there so far, or only a markup comment, or something else. -/
inductive Filling where
  | empty
  | marked
  | filled

/-- Each markup comment among the children of an array stands alone in a place that a comma ends. The children begin
inside a place, and the first argument says what is known of it. -/
def marksHoles : Filling → List Node → Bool
  | .marked, [] => false
  | _, [] => true
  | filling, c :: cs =>
    if c.kind = .token "[" ∨ c.kind = .token "]" ∨ isPlainRemark c then marksHoles filling cs
    else if c.kind = .token "," then marksHoles .empty cs
    else
      match filling, c.isForm .htmlComment with
      | .empty, true => marksHoles .marked cs
      | .empty, false => marksHoles .filled cs
      | .filled, false => marksHoles .filled cs
      | _, _ => false

mutual

/-- No markup comment of a literal is taken for a part of it: in an array each stands for a hole, and in a wrapper none
stands before the value. -/
def isClear : Node → Bool
  | .mk k _ _ _ cs =>
    match k with
    | .form .array => marksHoles .empty cs && areClear cs
    | .form .object => areClear cs
    | .form .pair => areClear cs
    | .form .parenthesizedExpression => firstIsClear cs
    | .form .asExpression => firstIsClear cs
    | .form .satisfiesExpression => firstIsClear cs
    | .form .nonNullExpression => firstIsClear cs
    | _ => true

def areClear : List Node → Bool
  | [] => true
  | c :: cs => isClear c && areClear cs

/-- The first child that is neither a token nor a comment is not a markup comment, and clear. -/
def firstIsClear : List Node → Bool
  | [] => true
  | c :: cs => if c.isNamed && !isPlainRemark c then !c.isForm .htmlComment && isClear c else firstIsClear cs

end

section Clear

variable {nameValue : String → Datum}

theorem isRemark_of_not_markup {c : Node} (h : c.isForm .htmlComment = false) : isRemark c = isPlainRemark c := by
  rw [isRemark, isPlainRemark, h, Bool.or_false]

/-- A markup comment has no value. -/
theorem valueWith_markup {remark : Node → Bool} {c : Node} (h : c.isForm .htmlComment = true) :
    valueWith remark nameValue c = .undefined := by
  obtain ⟨k, l, e, m, cs⟩ := c
  obtain rfl : k = .form .htmlComment := by simpa [Node.isForm, Node.kind] using h
  rw [valueWith] <;> simp

/-- The elements of an array as they are and as they appear, from a place on of which something is known: a markup
comment that is taken for an element stands in for the hole. -/
theorem elements_of_marksHoles (cs : List Node)
    (h : ∀ c ∈ cs, valueWith isRemark nameValue c = valueWith isPlainRemark nameValue c) :
    (marksHoles .empty cs = true →
      elements (places isRemark nameValue cs) = elements (places isPlainRemark nameValue cs)) ∧
    (marksHoles .marked cs = true →
      elements (places isRemark nameValue cs) = .undefined :: openElements (places isPlainRemark nameValue cs)) ∧
    (marksHoles .filled cs = true →
      openElements (places isRemark nameValue cs) = openElements (places isPlainRemark nameValue cs)) := by
  induction cs with
  | nil => exact ⟨fun _ => rfl, fun hc => absurd hc Bool.false_ne_true, fun _ => rfl⟩
  | cons c cs ih =>
    obtain ⟨hempty, hmarked, hfilled⟩ := ih fun d hd => h d (List.mem_cons_of_mem _ hd)
    have hactual := places_ne_nil isRemark nameValue cs
    have happarent := places_ne_nil isPlainRemark nameValue cs
    by_cases hskip : c.kind = .token "[" ∨ c.kind = .token "]" ∨ isPlainRemark c
    · have hskip' : c.kind = .token "[" ∨ c.kind = .token "]" ∨ isRemark c :=
        hskip.imp_right fun hc => hc.imp_right fun hremark => by
          rw [isRemark, show c.isForm .comment = true from hremark, Bool.true_or]
      simp only [marksHoles, places, if_pos hskip, if_pos hskip']
      exact ⟨hempty, hmarked, hfilled⟩
    by_cases hcomma : c.kind = .token ","
    · have hskip' : ¬(c.kind = .token "[" ∨ c.kind = .token "]" ∨ isRemark c) := by
        simp [isRemark, Node.isForm, hcomma]
      simp only [marksHoles, places, if_neg hskip, if_neg hskip', if_pos hcomma, elements_nil_cons hactual,
        elements_nil_cons happarent]
      exact ⟨fun hc => by rw [hempty hc], fun hc => congrArg _ (hempty hc), hempty⟩
    simp only [marksHoles, places, if_neg hskip, if_neg hcomma, elements_addFirst _ _ happarent,
      openElements_addFirst _ _ happarent]
    cases hmarkup : c.isForm .htmlComment with
    | true =>
      -- the comment fills no place, and appears to fill the one whose comma is still to come
      have hskip' : c.kind = .token "[" ∨ c.kind = .token "]" ∨ isRemark c := by simp [isRemark, hmarkup]
      rw [if_pos hskip', valueWith_markup hmarkup]
      exact ⟨hmarked, fun hc => absurd hc Bool.false_ne_true, fun hc => absurd hc Bool.false_ne_true⟩
    | false =>
      rw [isRemark_of_not_markup hmarkup, if_neg hskip, h c List.mem_cons_self, elements_addFirst _ _ hactual,
        openElements_addFirst _ _ hactual]
      exact ⟨fun hc => congrArg _ (hfilled hc), fun hc => absurd hc Bool.false_ne_true,
        fun hc => congrArg _ (hfilled hc)⟩

mutual

/-- The value of a clear expression is its apparent value. -/
theorem valueWith_of_isClear : ∀ n : Node, isClear n = true →
    valueWith isRemark nameValue n = valueWith isPlainRemark nameValue n
  | .mk k l e m cs, h => by
    rw [isClear.eq_def] at h
    simp only at h
    split at h
    · rw [Bool.and_eq_true] at h
      have hcs := valuesWith_of_areClear cs h.2
      exact congrArg Datum.array ((elements_of_marksHoles cs hcs).1 h.1)
    · exact congrArg Datum.object (members_of_areClear cs h)
    · rw [valueWith, valueWith] <;> simp
    iterate 4 exact contents_of_firstIsClear cs h
    · rw [valueWith.eq_def, valueWith.eq_def]
      simp only
      split <;> first | rfl | contradiction

theorem valuesWith_of_areClear : ∀ cs : List Node, areClear cs = true →
    ∀ c ∈ cs, valueWith isRemark nameValue c = valueWith isPlainRemark nameValue c
  | [], _ => nofun
  | c :: cs, h => by
    rw [areClear, Bool.and_eq_true] at h
    exact List.forall_mem_cons.2 ⟨valueWith_of_isClear c h.1, valuesWith_of_areClear cs h.2⟩

theorem contents_of_firstIsClear : ∀ cs : List Node, firstIsClear cs = true →
    contents isRemark nameValue cs = contents isPlainRemark nameValue cs
  | [], _ => rfl
  | c :: cs, h => by
    have ih := contents_of_firstIsClear cs
    rw [firstIsClear] at h
    rw [contents, contents]
    cases hmarkup : c.isForm .htmlComment with
    | true =>
      have hkind : c.kind = .form .htmlComment := by simpa [Node.isForm] using hmarkup
      simp [Node.isNamed, isPlainRemark, Node.isForm, hkind] at h
    | false =>
      rw [isRemark_of_not_markup hmarkup]
      split
      · rename_i hfirst
        rw [if_pos hfirst, hmarkup, Bool.not_false, Bool.true_and] at h
        exact valueWith_of_isClear c h
      · rename_i hfirst
        rw [if_neg hfirst] at h
        exact ih h

theorem members_of_areClear : ∀ cs : List Node, areClear cs = true →
    members isRemark nameValue cs = members isPlainRemark nameValue cs
  | [], _ => rfl
  | .mk k l e m ds :: cs, h => by
    rw [areClear, Bool.and_eq_true] at h
    have ih := members_of_areClear cs h.2
    rw [members.eq_def, members.eq_def]
    simp only [ih]
    split
    · rw [memberValue_of_areClear ds h.1]
    · rfl
    · rfl

theorem memberValue_of_areClear : ∀ cs : List Node, areClear cs = true →
    memberValue isRemark nameValue cs = memberValue isPlainRemark nameValue cs
  | [], _ => rfl
  | c :: cs, h => by
    rw [areClear, Bool.and_eq_true] at h
    rw [memberValue, memberValue, valueWith_of_isClear c h.1, memberValue_of_areClear cs h.2]

end

end Clear

/-- The initial value of a declaration, if it is one of a variable. -/
def initial? : Declaration → Option Node
  | .variable _ init => init
  | _ => none

/-- Tables whose initial values are clear. -/
def ClearTable (table : DeclarationTable) : Prop :=
  ∀ p ∈ table, ∀ n ∈ initial? p.2, isClear n = true

/-- Markup comments in clear expressions and tables change no value, whichever names are being followed. -/
theorem valueIn_of_isClear {table : DeclarationTable} (ht : ClearTable table) (resolving : List String) (n : Node)
    (h : isClear n = true) : valueIn isRemark table resolving n = valueIn isPlainRemark table resolving n := by
  rw [valueIn, valueIn, valueWith_of_isClear n h]
  congr 1
  funext name
  by_cases hname : name ∈ resolving
  · rw [dif_pos hname, dif_pos hname]
  · rw [dif_neg hname, dif_neg hname]
    rcases hl : table.lookup name with _ | (⟨node, _ | init⟩ | _ | _)
    · rfl
    · rfl
    · exact valueIn_of_isClear ht (name :: resolving) init (ht _ (mem_of_lookup hl) init rfl)
    · rfl
    · rfl
termination_by pending table resolving
decreasing_by exact pending_cons_lt hl hname

/-- The written form of an expression stands for a value: there is none exactly if the value is undefined, and what is
written is read as the value. -/
def ReadsBack (table : DeclarationTable) (n : Node) (v : Datum) : Prop :=
  (serialize table n = none ↔ v = .undefined) ∧ ∀ text, serialize table n = some text → read text = some v

/-- A written form stands for one value only. -/
theorem ReadsBack.unique {table : DeclarationTable} {n : Node} {v w : Datum} (hv : ReadsBack table n v)
    (hw : ReadsBack table n w) : v = w := by
  cases hform : serialize table n with
  | none => rw [hv.1.1 hform, hw.1.1 hform]
  | some text => exact Option.some.inj ((hv.2 text hform).symm.trans (hw.2 text hform))

/-- **Written literals read back.** For a tree without faults and carriage returns, and a table of such trees: the
written form stands for the apparent value; so it stands for the value exactly if no markup comment makes it appear
another; and this is so if the tree and the table are clear. -/
theorem serialize_readBack {table : DeclarationTable} (ht : LegibleTable table) {n : Node} (hn : Legible n) :
    ReadsBack table n (apparent table n) ∧
      (ReadsBack table n (value table n) ↔ value table n = apparent table n) ∧
      (ClearTable table → isClear n = true → ReadsBack table n (value table n)) := by
  have hbudget : pending table [] ≤ table.length := List.length_filter_le _ _
  have hmatches : Matches (serialize table n) (apparent table n) :=
    matches_serializeWithin ht table.length [] n hbudget hn
  have happarent : ReadsBack table n (apparent table n) := by
    rw [ReadsBack]
    generalize serialize table n = form, apparent table n = v at hmatches
    cases hmatches with
    | missing => simp
    | written h hv => simpa [hv] using h.read
  refine ⟨happarent, ⟨fun h => h.unique happarent, fun h => h ▸ happarent⟩, fun hclear hn => ?_⟩
  have heq : value table n = apparent table n := valueIn_of_isClear hclear [] n hn
  exact heq ▸ happarent

/-- A tidy table is legible if there are no returns in its initial values. -/
theorem legibleTable_of {table : DeclarationTable} (ht : TidyTable table)
    (h : ∀ p ∈ table, ∀ n ∈ initial? p.2, returnFree n = true) : LegibleTable table :=
  fun name node init hl => ⟨ht name node init hl, h _ (mem_of_lookup hl) init rfl⟩

/-- The initial value of a name of a table. -/
def initialOf? (table : DeclarationTable) (name : String) : Option Node :=
  (table.lookup name).bind initial?

theorem lookup_of_initialOf? {table : DeclarationTable} {name : String} {n : Node}
    (h : initialOf? table name = some n) :
    ∃ node, table.lookup name = some (.variable node (some n)) := by
  obtain ⟨d, hd, hinit⟩ := Option.bind_eq_some_iff.1 h
  cases d with
  | «variable» node init =>
    have hinit : init = some n := hinit
    exact ⟨node, by rw [hd, hinit]⟩
  | function => cases hinit
  | imported => cases hinit

/-- A text with strings of two kinds, a hole with a markup comment in it, a wrapper, a call and a comment after the last
comma. -/
def crowdedText : String :=
  "let q = `it's\n`, x = [q, <!-- hole\n , (1 as any), \x7b \"a b\": true, q, f: g() \x7d, /**/]"

theorem serialize_readBack_crowded : ∃ n, initialOf? (.ofTree (Script.parse .plain crowdedText)) "x" = some n ∧
    serialize (.ofTree (Script.parse .plain crowdedText)) n =
      some "['it\\'s\\n', undefined, 1, \x7b\"a b\": true, q: 'it\\'s\\n', f: undefined\x7d]" ∧
    read "['it\\'s\\n', undefined, 1, \x7b\"a b\": true, q: 'it\\'s\\n', f: undefined\x7d]" =
      some (value (.ofTree (Script.parse .plain crowdedText)) n) := by
  have hparsed : (Script.parse .plain crowdedText).hasFault = false ∧
      (∀ p ∈ DeclarationTable.ofTree (Script.parse .plain crowdedText), ∀ n ∈ initial? p.2,
        returnFree n = true ∧ isClear n = true) ∧
      (initialOf? (.ofTree (Script.parse .plain crowdedText)) "x").map
          (serialize (.ofTree (Script.parse .plain crowdedText))) =
        some (some "['it\\'s\\n', undefined, 1, \x7b\"a b\": true, q: 'it\\'s\\n', f: undefined\x7d]") := by
    decide +kernel
  obtain ⟨hfault, hclear, hwritten⟩ := hparsed
  obtain ⟨n, hn, hform⟩ := Option.map_eq_some_iff.1 hwritten
  have htable := legibleTable_of (tidyTable_ofTree (sound_parse _ _ hfault)) fun p hp n hn => (hclear p hp n hn).1
  obtain ⟨node, hlookup⟩ := lookup_of_initialOf? hn
  have hback := (serialize_readBack htable (htable "x" node n hlookup)).2.2 (fun p hp n hn => (hclear p hp n hn).2)
    (hclear _ (mem_of_lookup hlookup) n rfl).2
  exact ⟨n, hn, hform, hback.2 _ hform⟩

/-- The length of an array. -/
def Datum.length? : Datum → Option Nat
  | .array items => some items.length
  | _ => none

/-- An array in which a markup comment stands. -/
def commentedText : String := "const x = [1, <!-- c\n 2];"

/-- A markup comment is written as an element of its array, so that two elements are read as three. -/
theorem serialize_markupComment : (Script.parse .plain commentedText).hasFault = false ∧
    ∃ n, initialOf? (.ofTree (Script.parse .plain commentedText)) "x" = some n ∧ returnFree n = true ∧
      (value (.ofTree (Script.parse .plain commentedText)) n).length? = some 2 ∧
      serialize (.ofTree (Script.parse .plain commentedText)) n = some "[1, undefined, 2]" ∧
      (read "[1, undefined, 2]").bind Datum.length? = some 3 := by
  have hparsed : (Script.parse .plain commentedText).hasFault = false ∧
      (initialOf? (.ofTree (Script.parse .plain commentedText)) "x").map (fun n =>
        (returnFree n, (value (.ofTree (Script.parse .plain commentedText)) n).length?,
          serialize (.ofTree (Script.parse .plain commentedText)) n)) =
        some (true, some 2, some "[1, undefined, 2]") := by decide +kernel
  obtain ⟨hfault, hall⟩ := hparsed
  obtain ⟨n, hn, h⟩ := Option.map_eq_some_iff.1 hall
  obtain ⟨hreturn, h⟩ := Prod.mk.inj h
  obtain ⟨hlength, hform⟩ := Prod.mk.inj h
  exact ⟨hfault, n, hn, hreturn, hlength, hform, rfl⟩

end ModuleMock.Literal
