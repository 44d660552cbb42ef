import ModuleMock.Literal.Serialize

/-!
# Names in an expression

The written form of an expression is made from the forms of the names that it mentions (`mentions`), and of no others
(`serializeWith_congr`). Names can be replaced by expressions in parentheses (`inlineWith`): shorthand members are then
spelled out.

- `serializeWith_inlineWith`: writing after names are replaced is writing with the forms of what replaces them;
- `mentions_inlineWith`: after names are replaced, the names that are left of them are mentioned.
-/

namespace ModuleMock.Literal

open Syntax

/-! ## Names in an expression -/

/-- The key of a pair that is written: one that is not computed. -/
def fixedKey? (pair : Node) : Option Node := (pair.child? .key).filter (!·.isForm .computedPropertyName)

mutual

/-- The names that the written form of an expression is made from. -/
def mentions : Node → List String
  | .mk k _ e _ cs =>
    match k with
    | .form .identifier => [e.text]
    | .form .array => elementMentions cs
    | .form .object => memberMentions cs
    | .form .parenthesizedExpression => firstMentions cs
    | .form .asExpression => firstMentions cs
    | .form .satisfiesExpression => firstMentions cs
    | .form .nonNullExpression => firstMentions cs
    | _ => []

def firstMentions : List Node → List String
  | [] => []
  | c :: cs => if c.isNamed && !c.isForm .comment then mentions c else firstMentions cs

def elementMentions : List Node → List String
  | [] => []
  | c :: cs => mentions c ++ elementMentions cs

def memberMentions : List Node → List String
  | [] => []
  | .mk k l e m cs :: rest =>
    match k with
    | .form .pair => (if (fixedKey? (.mk k l e m cs)).isSome then valueMentions cs else []) ++ memberMentions rest
    | .form .shorthandPropertyIdentifier => e.text :: memberMentions rest
    | _ => memberMentions rest

def valueMentions : List Node → List String
  | [] => []
  | c :: cs => if c.label = some .value then mentions c else valueMentions cs

end

section Congr

variable {follow follow' : String → Option String}

/-- What a member of an object is written as. -/
def entryOf? (follow : String → Option String) : Node → Option String
  | .mk k l e m cs =>
    match k with
    | .form .pair =>
      (fixedKey? (.mk k l e m cs)).bind fun key => (memberForm follow cs).map fun value => key.text ++ ": " ++ value
    | .form .shorthandPropertyIdentifier => some (e.text ++ ": " ++ (follow e.text).getD absent)
    | _ => none

theorem objectEntries_cons (follow : String → Option String) (n : Node) (rest : List Node) :
    objectEntries follow (n :: rest) = (entryOf? follow n).toList ++ objectEntries follow rest := by
  obtain ⟨k, l, e, m, cs⟩ := n
  rw [objectEntries.eq_def]
  dsimp only
  split
  · rw [entryOf?, fixedKey?]
    cases (Node.mk (.form .pair) l e m cs).child? .key with
    | none => rfl
    | some key =>
      cases hc : key.isForm .computedPropertyName <;> cases memberForm follow cs <;> simp [Option.filter, hc]
  · rw [entryOf?]
    rfl
  · rw [entryOf?]
    · rfl
    all_goals assumption

mutual

/-- The form of an expression depends on the names it mentions only. -/
theorem serializeWith_congr : ∀ n : Node, (∀ name ∈ mentions n, follow name = follow' name) →
    serializeWith follow n = serializeWith follow' n
  | .mk k l e m cs, h => by
    rw [serializeWith.eq_def, serializeWith.eq_def]
    dsimp only
    split
    · rfl
    · rfl
    · rfl
    · rfl
    · rfl
    · rw [mentions] at h
      rw [arrayItems_congr cs true h]
    · rw [mentions] at h
      rw [objectEntries_congr cs h]
    · rw [mentions] at h
      exact h _ List.mem_cons_self
    iterate 4
      rw [mentions] at h
      exact serializeFirst_congr cs h
    · rfl

theorem serializeFirst_congr : ∀ cs : List Node, (∀ name ∈ firstMentions cs, follow name = follow' name) →
    serializeFirst follow cs = serializeFirst follow' cs
  | [], _ => rfl
  | c :: cs, h => by
    rw [firstMentions] at h
    rw [serializeFirst, serializeFirst]
    split
    · rename_i hc
      rw [if_pos hc] at h
      exact serializeWith_congr c h
    · rename_i hc
      rw [if_neg hc] at h
      exact serializeFirst_congr cs h

theorem arrayItems_congr : ∀ (cs : List Node) (hole : Bool),
    (∀ name ∈ elementMentions cs, follow name = follow' name) → arrayItems follow hole cs = arrayItems follow' hole cs
  | [], _, _ => rfl
  | c :: cs, hole, h => by
    rw [elementMentions, List.forall_mem_append] at h
    have ih := fun hole => arrayItems_congr cs hole h.2
    rw [arrayItems, arrayItems, serializeWith_congr c h.1, ih, ih, ih]

theorem objectEntries_congr : ∀ cs : List Node, (∀ name ∈ memberMentions cs, follow name = follow' name) →
    objectEntries follow cs = objectEntries follow' cs
  | [], _ => rfl
  | .mk k l e m cs :: rest, h => by
    rw [memberMentions.eq_def] at h
    rw [objectEntries_cons, objectEntries_cons]
    dsimp only at h
    split at h
    · rw [List.forall_mem_append] at h
      have hvalue := h.1
      rw [objectEntries_congr rest h.2, entryOf?, entryOf?]
      cases hkey : fixedKey? (.mk (.form .pair) l e m cs) with
      | none => rfl
      | some key =>
        rw [hkey] at hvalue
        rw [memberForm_congr cs hvalue]
    · rw [List.forall_mem_cons] at h
      rw [objectEntries_congr rest h.2, entryOf?, entryOf?, h.1]
    · rw [objectEntries_congr rest h, entryOf?, entryOf?]
      all_goals assumption

theorem memberForm_congr : ∀ cs : List Node, (∀ name ∈ valueMentions cs, follow name = follow' name) →
    memberForm follow cs = memberForm follow' cs
  | [], _ => rfl
  | c :: cs, h => by
    rw [valueMentions] at h
    rw [memberForm, memberForm]
    split
    · rename_i hc
      rw [if_pos hc] at h
      rw [serializeWith_congr c h]
    · rename_i hc
      rw [if_neg hc] at h
      exact memberForm_congr cs h

end

end Congr

/-! ## Wrappers -/

/-- What does not tell a wrapper from what it holds does not tell an expression from what is below its wrappers. -/
theorem apply_unwrap {α : Type} (f : Node → α)
    (h : ∀ n c, n.isWrapper = true → n.codeChildren.head? = some c → f n = f c) (n : Node) : f n.unwrap = f n := by
  fun_induction Node.unwrap n with
  | case1 n hw c hc ih => rw [ih, h n c hw hc]
  | case2 => rfl
  | case3 => rfl

theorem kind_of_isWrapper {n : Node} (h : n.isWrapper = true) :
    n.kind = .form .parenthesizedExpression ∨ n.kind = .form .asExpression ∨ n.kind = .form .satisfiesExpression ∨
      n.kind = .form .nonNullExpression := by
  simpa [Node.isWrapper, Node.isForm, or_assoc] using h

/-- What is asked of the first child that is neither a token nor a comment. -/
theorem first_eq {α : Type} (f : Node → α) (first : List Node → α)
    (h : ∀ c cs, first (c :: cs) = if c.isNamed && !c.isForm .comment then f c else first cs) (n : Node) :
    first n.children = (n.codeChildren.head?.map f).getD (first []) := by
  rw [Node.codeChildren, List.head?_filter]
  induction n.children with
  | nil => rfl
  | cons c cs ih =>
    rw [h, List.find?_cons]
    cases c.isNamed && !c.isForm .comment with
    | true => rfl
    | false => exact ih

/-- A wrapper is written as its first code child is. -/
theorem serializeWith_of_isWrapper (follow : String → Option String) {n : Node} (h : n.isWrapper = true) :
    serializeWith follow n = (n.codeChildren.head?.map (serializeWith follow)).getD none := by
  have hfirst := first_eq (serializeWith follow) (serializeFirst follow) (fun c cs => by rw [serializeFirst]) n
  obtain ⟨k, l, e, m, cs⟩ := n
  obtain rfl | rfl | rfl | rfl := kind_of_isWrapper h
  all_goals
    rw [serializeWith]
    exact hfirst

/-- A wrapper mentions what its first code child mentions. -/
theorem mentions_of_isWrapper {n : Node} (h : n.isWrapper = true) :
    mentions n = (n.codeChildren.head?.map mentions).getD [] := by
  have hfirst := first_eq mentions firstMentions (fun c cs => by rw [firstMentions]) n
  obtain ⟨k, l, e, m, cs⟩ := n
  obtain rfl | rfl | rfl | rfl := kind_of_isWrapper h
  all_goals
    rw [mentions]
    exact hfirst

/-- Looking through wrappers does not change what is written. -/
theorem serializeWith_unwrap (follow : String → Option String) (n : Node) :
    serializeWith follow n.unwrap = serializeWith follow n :=
  apply_unwrap (serializeWith follow) (fun n c hw hc => by rw [serializeWith_of_isWrapper follow hw, hc]; rfl) n

theorem mentions_unwrap (n : Node) : mentions n.unwrap = mentions n :=
  apply_unwrap mentions (fun n c hw hc => by rw [mentions_of_isWrapper hw, hc]; rfl) n

/-- What wrappers hold is no wrapper, or an empty one. -/
theorem unwrap_cases (n : Node) : n.unwrap.isWrapper = false ∨ n.unwrap.codeChildren.head? = none := by
  fun_induction Node.unwrap n with
  | case1 n hw c hc ih => exact ih
  | case2 n hw hc => exact .inr hc
  | case3 n hw => exact .inl (by simpa using hw)

/-- Names stand in arrays and objects, or alone. -/
theorem mentions_eq_nil {n : Node} (hname : n.unwrap.isForm .identifier = false)
    (harray : n.unwrap.isForm .array = false) (hobject : n.unwrap.isForm .object = false) : mentions n = [] := by
  rw [← mentions_unwrap]
  by_cases hwrap : n.unwrap.isWrapper = true
  · have hempty := (unwrap_cases n).resolve_left (by simp [hwrap])
    rw [mentions_of_isWrapper hwrap, hempty]
    rfl
  · generalize n.unwrap = n at *
    obtain ⟨k, l, e, m, cs⟩ := n
    simp only [Node.isWrapper, Node.isForm, Node.kind, Bool.or_eq_true, beq_iff_eq, not_or,
      beq_eq_false_iff_ne] at *
    rw [mentions]
    all_goals simp_all

/-! ## Replacing names -/

/-- A punctuation mark in the place of another node. -/
def markAt (e : Extent) (spelling : String) : Node := .mk (.token spelling) none { e with text := spelling } false []

/-- An expression in parentheses in the place of another one. -/
def enclosed (l : Option Label) (e : Extent) (v : Node) : Node :=
  .mk (.form .parenthesizedExpression) l e false [markAt e "(", v, markAt e ")"]

/-- A pair of a name and its value in the place of a shorthand name. -/
def spelledOut (l : Option Label) (e : Extent) (v : Node) : Node :=
  .mk (.form .pair) l e false
    [.mk (.form .propertyIdentifier) (some .key) e false [], markAt e ":", enclosed (some .value) e v]

mutual

/-- The expression in which the names it mentions are replaced as far as there is something to replace them by. -/
def inlineWith (expand : String → Option Node) : Node → Node
  | .mk k l e m cs =>
    match k with
    | .form .identifier =>
      match expand e.text with
      | some v => enclosed l e v
      | none => .mk k l e m cs
    | .form .array => .mk k l e m (inlineElements expand cs)
    | .form .object => .mk k l e m (inlineMembers expand cs)
    | .form .parenthesizedExpression => .mk k l e m (inlineFirst expand cs)
    | .form .asExpression => .mk k l e m (inlineFirst expand cs)
    | .form .satisfiesExpression => .mk k l e m (inlineFirst expand cs)
    | .form .nonNullExpression => .mk k l e m (inlineFirst expand cs)
    | _ => .mk k l e m cs

def inlineFirst (expand : String → Option Node) : List Node → List Node
  | [] => []
  | c :: cs => if c.isNamed && !c.isForm .comment then inlineWith expand c :: cs else c :: inlineFirst expand cs

def inlineElements (expand : String → Option Node) : List Node → List Node
  | [] => []
  | c :: cs => inlineWith expand c :: inlineElements expand cs

def inlineMembers (expand : String → Option Node) : List Node → List Node
  | [] => []
  | .mk k l e m cs :: rest =>
    (match k with
      | .form .pair =>
        if (fixedKey? (.mk k l e m cs)).isSome then .mk k l e m (inlineValue expand cs) else .mk k l e m cs
      | .form .shorthandPropertyIdentifier =>
        match expand e.text with
        | some v => spelledOut l e v
        | none => .mk k l e m cs
      | _ => .mk k l e m cs) :: inlineMembers expand rest

def inlineValue (expand : String → Option Node) : List Node → List Node
  | [] => []
  | c :: cs => if c.label = some .value then inlineWith expand c :: cs else c :: inlineValue expand cs

end

section Replacing

variable {expand : String → Option Node}

/-- Marks and comments have no form and mention nothing. -/
theorem serializeWith_of_not_code {n : Node} (h : ¬(n.isNamed && !n.isForm .comment) = true)
    (follow : String → Option String) : serializeWith follow n = none := by
  obtain ⟨f | _, l, e, m, cs⟩ := n
  · obtain rfl : f = .comment := by simpa [Node.isNamed, Node.isForm, Node.kind] using h
    rfl
  · rfl

theorem mentions_of_not_code {n : Node} (h : ¬(n.isNamed && !n.isForm .comment) = true) : mentions n = [] := by
  obtain ⟨f | _, l, e, m, cs⟩ := n
  · obtain rfl : f = .comment := by simpa [Node.isNamed, Node.isForm, Node.kind] using h
    rfl
  · rfl

/-- Parentheses do not matter, whatever stands in them. -/
theorem serializeWith_enclosed (follow : String → Option String) (l : Option Label) (e : Extent) (v : Node) :
    serializeWith follow (enclosed l e v) = serializeWith follow v := by
  rw [enclosed, serializeWith, serializeFirst, if_neg (by exact Bool.false_ne_true), serializeFirst]
  split
  · rfl
  · rename_i hv
    rw [serializeWith_of_not_code hv]
    rfl

theorem mentions_enclosed (l : Option Label) (e : Extent) (v : Node) : mentions (enclosed l e v) = mentions v := by
  rw [enclosed, mentions, firstMentions, if_neg (by exact Bool.false_ne_true), firstMentions]
  split
  · rfl
  · rename_i hv
    rw [mentions_of_not_code hv]
    rfl

/-- Inlining keeps labels. -/
theorem label_inlineWith (n : Node) : (inlineWith expand n).label = n.label := by
  obtain ⟨k, l, e, m, cs⟩ := n
  rw [inlineWith.eq_def]
  dsimp only
  split
  · split <;> rfl
  all_goals rfl

/-- Only a name becomes a node of another kind. -/
theorem kind_inlineWith (expand : String → Option Node) (n : Node) : (inlineWith expand n).kind = n.kind ∨
    n.kind = .form .identifier ∧ (inlineWith expand n).kind = .form .parenthesizedExpression := by
  obtain ⟨k, l, e, m, cs⟩ := n
  rw [inlineWith.eq_def]
  dsimp only
  split
  · split
    · exact .inr ⟨rfl, rfl⟩
    · exact .inl rfl
  all_goals exact .inl rfl

theorem kind_inlineWith_eq_iff {n : Node} {k : Kind} (hname : k ≠ .form .identifier)
    (hclosed : k ≠ .form .parenthesizedExpression) : (inlineWith expand n).kind = k ↔ n.kind = k := by
  rcases kind_inlineWith expand n with h | ⟨h, h'⟩
  · rw [h]
  · rw [h, h']
    exact ⟨fun he => absurd he.symm hclosed, fun he => absurd he.symm hname⟩

theorem isCode_inlineWith (n : Node) : ((inlineWith expand n).isNamed && !(inlineWith expand n).isForm .comment) =
    (n.isNamed && !n.isForm .comment) := by
  rcases kind_inlineWith expand n with h | ⟨h, h'⟩
  · simp only [Node.isNamed, Node.isForm, h]
  · simp only [Node.isNamed, Node.isForm, h, h']
    rfl

theorem find?_key_inlineValue (cs : List Node) : (inlineValue expand cs).find? (fun c => c.label == some .key) =
    cs.find? fun c => c.label == some .key := by
  induction cs with
  | nil => rfl
  | cons c cs ih =>
    rw [inlineValue]
    split
    · rename_i hc
      rw [List.find?_cons, List.find?_cons, label_inlineWith, hc]
      rfl
    · rw [List.find?_cons, List.find?_cons, ih]

/-- Inlining keeps the keys of pairs. -/
theorem fixedKey?_inlineValue (l : Option Label) (e : Extent) (m : Bool) (cs : List Node) :
    fixedKey? (.mk (.form .pair) l e m (inlineValue expand cs)) = fixedKey? (.mk (.form .pair) l e m cs) := by
  rw [fixedKey?, fixedKey?, Node.child?, Node.child?]
  exact congrArg _ (find?_key_inlineValue cs)

/-- The forms of names, given what replaces them. -/
def filled (expand : String → Option Node) (follow : String → Option String) (name : String) : Option String :=
  match expand name with
  | some v => serializeWith follow v
  | none => follow name

variable {follow : String → Option String}

mutual

/-- Writing after names are replaced is writing with the forms of what replaces them. -/
theorem serializeWith_inlineWith : ∀ n : Node,
    serializeWith follow (inlineWith expand n) = serializeWith (filled expand follow) n
  | .mk k l e m cs => by
    rw [inlineWith.eq_def]
    dsimp only
    split
    · show _ = filled expand follow e.text
      rw [filled]
      split
      · exact serializeWith_enclosed follow l e _
      · rfl
    · rw [serializeWith, serializeWith, arrayItems_inlineElements cs]
    · rw [serializeWith, serializeWith, objectEntries_inlineMembers cs]
    iterate 4
      rw [serializeWith, serializeWith]
      exact serializeFirst_inlineFirst cs
    · refine serializeWith_congr _ ?_
      rw [mentions]
      · simp
      all_goals assumption

theorem serializeFirst_inlineFirst : ∀ cs : List Node,
    serializeFirst follow (inlineFirst expand cs) = serializeFirst (filled expand follow) cs
  | [] => rfl
  | c :: cs => by
    rw [inlineFirst]
    conv => rhs; rw [serializeFirst]
    split
    · rename_i hc
      rw [serializeFirst, isCode_inlineWith, if_pos hc]
      exact serializeWith_inlineWith c
    · rename_i hc
      rw [serializeFirst, if_neg hc]
      exact serializeFirst_inlineFirst cs

theorem arrayItems_inlineElements : ∀ (cs : List Node) (hole : Bool),
    arrayItems follow hole (inlineElements expand cs) = arrayItems (filled expand follow) hole cs
  | [], _ => rfl
  | c :: cs, hole => by
    have ih := arrayItems_inlineElements cs
    rw [inlineElements, arrayItems, arrayItems, serializeWith_inlineWith c, ih, ih, ih]
    simp only [kind_inlineWith_eq_iff (k := .token "[") (by decide) (by decide),
      kind_inlineWith_eq_iff (k := .token "]") (by decide) (by decide),
      kind_inlineWith_eq_iff (k := .form .comment) (by decide) (by decide),
      kind_inlineWith_eq_iff (k := .token ",") (by decide) (by decide)]

theorem objectEntries_inlineMembers : ∀ cs : List Node,
    objectEntries follow (inlineMembers expand cs) = objectEntries (filled expand follow) cs
  | [] => rfl
  | .mk k l e m cs :: rest => by
    rw [inlineMembers.eq_def]
    dsimp only
    rw [objectEntries_cons, objectEntries_cons, objectEntries_inlineMembers rest]
    congr 2
    split
    · split
      · rw [entryOf?, entryOf?, fixedKey?_inlineValue, memberForm_inlineValue cs]
      · rename_i hkey
        rw [Option.not_isSome_iff_eq_none] at hkey
        rw [entryOf?, entryOf?, hkey]
        rfl
    · conv => rhs; rw [entryOf?, filled]
      split
      · rename_i v _
        rw [spelledOut, entryOf?, ← serializeWith_enclosed follow (some .value) e v]
        rfl
      · rw [entryOf?]
    · rw [entryOf?, entryOf?]
      all_goals assumption

theorem memberForm_inlineValue : ∀ cs : List Node,
    memberForm follow (inlineValue expand cs) = memberForm (filled expand follow) cs
  | [] => rfl
  | c :: cs => by
    rw [inlineValue]
    conv => rhs; rw [memberForm]
    split
    · rename_i hc
      rw [memberForm, label_inlineWith, if_pos hc, serializeWith_inlineWith c]
    · rename_i hc
      rw [memberForm, if_neg hc]
      exact memberForm_inlineValue cs

end

/-- The names that are left of a name when it is replaced. -/
def remaining (expand : String → Option Node) (name : String) : List String :=
  match expand name with
  | some v => mentions v
  | none => [name]

mutual

/-- After names are replaced, the names that are left of them are mentioned. -/
theorem mentions_inlineWith : ∀ n : Node, mentions (inlineWith expand n) = (mentions n).flatMap (remaining expand)
  | .mk k l e m cs => by
    rw [inlineWith.eq_def]
    dsimp only
    split
    · show _ = [e.text].flatMap (remaining expand)
      rw [List.flatMap_singleton, remaining]
      split
      · exact mentions_enclosed l e _
      · rfl
    · rw [mentions, mentions, elementMentions_inlineElements cs]
    · rw [mentions, mentions, memberMentions_inlineMembers cs]
    iterate 4
      rw [mentions, mentions]
      exact firstMentions_inlineFirst cs
    · rw [mentions]
      · rfl
      all_goals assumption

theorem firstMentions_inlineFirst : ∀ cs : List Node,
    firstMentions (inlineFirst expand cs) = (firstMentions cs).flatMap (remaining expand)
  | [] => rfl
  | c :: cs => by
    rw [inlineFirst]
    conv => rhs; rw [firstMentions]
    split
    · rename_i hc
      rw [firstMentions, isCode_inlineWith, if_pos hc]
      exact mentions_inlineWith c
    · rename_i hc
      rw [firstMentions, if_neg hc]
      exact firstMentions_inlineFirst cs

theorem elementMentions_inlineElements : ∀ cs : List Node,
    elementMentions (inlineElements expand cs) = (elementMentions cs).flatMap (remaining expand)
  | [] => rfl
  | c :: cs => by
    rw [inlineElements, elementMentions, elementMentions, mentions_inlineWith c, elementMentions_inlineElements cs,
      List.flatMap_append]

theorem memberMentions_inlineMembers : ∀ cs : List Node,
    memberMentions (inlineMembers expand cs) = (memberMentions cs).flatMap (remaining expand)
  | [] => rfl
  | .mk k l e m cs :: rest => by
    have ih := memberMentions_inlineMembers rest
    rw [inlineMembers.eq_def]
    dsimp only
    split
    · conv => rhs; rw [memberMentions, List.flatMap_append, ← ih]
      split
      · rename_i hkey
        rw [memberMentions, fixedKey?_inlineValue, if_pos hkey, valueMentions_inlineValue cs]
      · rename_i hkey
        rw [memberMentions, if_neg hkey]
        rfl
    · conv => rhs; rw [memberMentions, List.flatMap_cons, remaining, ← ih]
      split
      · rename_i v _
        rw [spelledOut, memberMentions, ← mentions_enclosed (some .value) e v]
        rfl
      · rw [memberMentions]
        rfl
    · rw [memberMentions, memberMentions, ih]
      all_goals assumption

theorem valueMentions_inlineValue : ∀ cs : List Node,
    valueMentions (inlineValue expand cs) = (valueMentions cs).flatMap (remaining expand)
  | [] => rfl
  | c :: cs => by
    rw [inlineValue]
    conv => rhs; rw [valueMentions]
    split
    · rename_i hc
      rw [valueMentions, label_inlineWith, if_pos hc]
      exact mentions_inlineWith c
    · rename_i hc
      rw [valueMentions, if_neg hc]
      exact valueMentions_inlineValue cs

end

end Replacing

end ModuleMock.Literal
