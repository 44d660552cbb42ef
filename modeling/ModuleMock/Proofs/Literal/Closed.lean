import ModuleMock.Literal.Serialize
import ModuleMock.Proofs.Script.Rules
import ModuleMock.Proofs.Surface.Statements
import ModuleMock.Proofs.Syntax.Placement

/-!
# Literals are closed

`LiteralText` is the grammar of literals as they are written out: single-quoted strings, numbers, `true` and `false`, and
arrays and objects of these in which `undefined` may stand for a value. It has no names, calls or substitutions.

- `literalText_requote`: what is written for a string or template is a single-quoted string;
- `literalText_serialize`: the written form of an expression in a tidy tree is in the grammar, whatever names it
  follows.
-/

namespace ModuleMock.Literal

open Syntax Script

/-! ## The grammar -/

/-- A fixed key, as it is written. -/
def KeyText (text : String) : Prop :=
  WordToken text.toList ∨ PrivateToken text.toList ∨ NumberToken text.toList ∨ StringToken text.toList

inductive LiteralText : String → Prop
  | string {body : List Char} (h : Body (IsStringChar '\'') body) :
      LiteralText (String.ofList ('\'' :: body ++ ['\'']))
  | number {text : String} (h : NumberToken text.toList) : LiteralText text
  | true : LiteralText "true"
  | false : LiteralText "false"
  | array {items : List String} (h : ∀ item ∈ items, item ≠ absent → LiteralText item) :
      LiteralText ("[" ++ ", ".intercalate items ++ "]")
  | object {members : List (String × String)} (keys : ∀ m ∈ members, KeyText m.1)
      (values : ∀ m ∈ members, m.2 ≠ absent → LiteralText m.2) :
      LiteralText ("\x7b" ++ ", ".intercalate (members.map fun m => m.1 ++ ": " ++ m.2) ++ "\x7d")

/-! ## Strings -/

/-- The marks that a body may stand between. -/
def IsQuote (quote : Char) : Prop := quote = '"' ∨ quote = '\'' ∨ quote = '`'

/-- Quoting anew leaves no quotation mark and no line end bare. -/
theorem body_requoteBody {quote : Char} (hq : IsQuote quote) {cs : List Char} (h : Body (· ≠ '\\') cs) :
    Body (IsStringChar '\'') (requoteBody quote cs) := by
  fun_induction requoteBody quote cs with
  | case1 => exact .nil
  | case2 c cs ih =>
    have ih : Body (IsStringChar '\'') (requoteBody quote cs) := by
      cases h with
      | plain hc _ => exact absurd rfl hc
      | escape h => exact ih h
      | continuation h => exact ih (.plain (by decide) h)
    split
    · -- an escaped quotation mark of another kind needs no escape
      rename_i hc
      obtain ⟨rfl, hne⟩ := hc
      refine .plain ⟨hne, ?_, ?_, ?_⟩ ih
      · rcases hq with rfl | rfl | rfl <;> decide
      · rcases hq with rfl | rfl | rfl <;> decide
      · rcases hq with rfl | rfl | rfl <;> decide
    · exact .escape ih
  | case3 cs ih =>
    cases h with
    | plain _ h => exact .escape (ih h)
  | case4 cs ih =>
    cases h with
    | plain _ h => exact .escape (ih h)
  | case5 cs ih =>
    cases h with
    | plain _ h => exact .escape (ih h)
  | case6 c cs hescape hquote hfeed hreturn ih =>
    cases h with
    | plain hc h => exact .plain ⟨hquote, hc, hfeed, hreturn⟩ (ih h)
    | escape => exact (hescape _ _ rfl rfl).elim
    | continuation => exact (hescape _ _ rfl rfl).elim

/-- A body without stray backslashes is written as a single-quoted string. -/
theorem literalText_requote {quote : Char} (hq : IsQuote quote) {body : String} (h : Body (· ≠ '\\') body.toList) :
    LiteralText (requote quote body) := .string (body_requoteBody hq h)

theorem stringValue_of_text {n : Node} {open' close : Char} {body : List Char}
    (h : n.text.toList = open' :: (body ++ [close])) : n.stringValue = String.ofList body := by
  unfold Node.stringValue
  rw [h]
  simp

/-- Strings are written as literals. -/
theorem literalText_stringForm {n : Node} (h : StringToken n.text.toList) : LiteralText (stringForm n) := by
  generalize ht : n.text.toList = text at h
  cases h with
  | @intro quote body gap hq hb hg =>
    unfold stringForm
    rw [stringValue_of_text ht, ht]
    refine literalText_requote (hq.imp_right .inl) ?_
    rw [String.toList_ofList]
    exact (hb.mono fun c hc => hc.2.1).append hg.body

/-- Templates without substitutions are written as literals. -/
theorem literalText_template {n : Node} (h : TemplateToken n.text.toList) :
    LiteralText (requote '`' n.stringValue) := by
  generalize ht : n.text.toList = text at h
  cases h with
  | intro hb =>
    rw [stringValue_of_text ht]
    refine literalText_requote (.inr (.inr rfl)) ?_
    rw [String.toList_ofList]
    exact hb.mono fun c hc => hc.2

/-! ## Expressions -/

/-- All children of a tidy node are tidy, but for attributes of embedded markup. -/
theorem tidy_children {k : Kind} {l : Option Label} {e : Extent} {m : Bool} {cs : List Node}
    (h : Tidy (.mk k l e m cs)) (hk : k ≠ .form .jsxAttribute) : ∀ c ∈ cs, Tidy c := by
  intro c hc
  cases h with
  | mk _ children => exact children c hc (by simp [isExempt, hk])

theorem tidy_of_isForm {n c : Node} {f : Form} (hn : Tidy n) (hf : n.isForm f = true) (hne : f ≠ .jsxAttribute)
    (hc : c ∈ n.children) : Tidy c := by
  obtain ⟨k, l, e, m, cs⟩ := n
  obtain rfl : k = .form f := by simpa [Node.isForm, Node.kind] using hf
  exact tidy_children hn (fun h => hne (Kind.form.inj h)) c hc

theorem shape_of_tidy {k : Kind} {l : Option Label} {e : Extent} {m : Bool} {cs : List Node}
    (h : Tidy (.mk k l e m cs)) : Shape k e.text.toList cs := by
  cases h with
  | mk shape _ => exact shape

/-- The key of a pair is fixed or computed. -/
theorem keyText_of_tidy {key : Node} (h : Tidy key) (hkey : key.isKey = true)
    (hc : key.isForm .computedPropertyName = false) : KeyText key.text := by
  obtain ⟨k, l, e, m, cs⟩ := key
  have hshape := shape_of_tidy h
  simp only [Node.isKey, hc, Bool.or_false, Bool.or_eq_true] at hkey
  simp only [Node.isForm, Node.kind, beq_iff_eq] at hkey
  obtain ((rfl | rfl) | rfl) | rfl := hkey
  · exact .inl hshape
  · exact .inr (.inl hshape)
  · exact .inr (.inr (.inr hshape.token))
  · exact .inr (.inr (.inl hshape))

section Serialize

/-- The names that are followed stand for literals. -/
def FollowsLiterals (follow : String → Option String) : Prop := ∀ name text, follow name = some text → LiteralText text

variable {follow : String → Option String}

mutual

/-- The written form of a tidy tree is a literal, if names are followed to literals. -/
theorem literalText_serializeWith (hfollow : FollowsLiterals follow) : ∀ (n : Node), Tidy n →
    ∀ text, serializeWith follow n = some text → LiteralText text
  | .mk k l e m cs, hn, text, h => by
    have hshape := shape_of_tidy hn
    rw [serializeWith.eq_def] at h
    dsimp only at h
    split at h
    · obtain rfl := Option.some.inj h
      exact literalText_stringForm hshape.token
    · split at h
      · cases h
      · rename_i hnone
        obtain rfl := Option.some.inj h
        refine literalText_template (hshape fun c hc => ?_)
        simpa using fun hf => hnone (List.any_eq_true.2 ⟨c, hc, hf⟩)
    · obtain rfl := Option.some.inj h
      exact .number hshape
    · cases h
      exact .true
    · cases h
      exact .false
    · obtain rfl := Option.some.inj h
      exact .array (literalText_arrayItems hfollow cs true (tidy_children hn (by decide)))
    · obtain rfl := Option.some.inj h
      obtain ⟨members, hm, hkeys, hvalues⟩ := literalText_objectEntries hfollow cs (tidy_children hn (by decide))
      rw [hm]
      exact .object hkeys hvalues
    · exact hfollow _ text h
    · exact literalText_serializeFirst hfollow cs (tidy_children hn (by decide)) text h
    · exact literalText_serializeFirst hfollow cs (tidy_children hn (by decide)) text h
    · exact literalText_serializeFirst hfollow cs (tidy_children hn (by decide)) text h
    · exact literalText_serializeFirst hfollow cs (tidy_children hn (by decide)) text h
    · cases h

theorem literalText_serializeFirst (hfollow : FollowsLiterals follow) : ∀ (cs : List Node), (∀ c ∈ cs, Tidy c) →
    ∀ text, serializeFirst follow cs = some text → LiteralText text
  | [], _, text, h => by cases h
  | c :: cs, hcs, text, h => by
    rw [serializeFirst] at h
    split at h
    · exact literalText_serializeWith hfollow c (hcs c List.mem_cons_self) text h
    · exact literalText_serializeFirst hfollow cs (fun d hd => hcs d (List.mem_cons_of_mem _ hd)) text h

theorem literalText_arrayItems (hfollow : FollowsLiterals follow) : ∀ (cs : List Node) (hole : Bool), (∀ c ∈ cs, Tidy c) →
    ∀ item ∈ arrayItems follow hole cs, item ≠ absent → LiteralText item
  | [], _, _, item, h, _ => by cases h
  | c :: cs, hole, hcs, item, h, hne => by
    have hrest := fun hole => literalText_arrayItems hfollow cs hole fun d hd => hcs d (List.mem_cons_of_mem _ hd)
    rw [arrayItems] at h
    split at h
    · exact hrest hole item h hne
    · split at h
      · split at h
        · rcases List.mem_cons.1 h with rfl | h
          · exact absurd rfl hne
          · exact hrest _ item h hne
        · exact hrest _ item h hne
      · rcases List.mem_cons.1 h with rfl | h
        · cases hs : serializeWith follow c with
          | none => rw [hs] at hne; exact absurd rfl hne
          | some text => exact literalText_serializeWith hfollow c (hcs c List.mem_cons_self) text hs
        · exact hrest _ item h hne

theorem literalText_objectEntries (hfollow : FollowsLiterals follow) : ∀ (cs : List Node), (∀ c ∈ cs, Tidy c) →
    ∃ members : List (String × String), objectEntries follow cs = members.map (fun m => m.1 ++ ": " ++ m.2) ∧
      (∀ m ∈ members, KeyText m.1) ∧ ∀ m ∈ members, m.2 ≠ absent → LiteralText m.2
  | [], _ => ⟨[], rfl, by simp, by simp⟩
  | .mk k l e m cs :: rest, hcs => by
    have hn := hcs _ List.mem_cons_self
    have hshape := shape_of_tidy hn
    obtain ⟨members, hm, hkeys, hvalues⟩ :=
      literalText_objectEntries hfollow rest fun d hd => hcs d (List.mem_cons_of_mem _ hd)
    rw [objectEntries.eq_def]
    dsimp only
    split
    · have htidy := tidy_children hn (by decide)
      split
      · rename_i key value hkey hvalue
        split
        · exact ⟨members, hm, hkeys, hvalues⟩
        · rename_i hc
          have hkeyText := keyText_of_tidy (htidy key (List.mem_of_find?_eq_some hkey)) (hshape key hkey) (by simpa using hc)
          refine ⟨(key.text, value) :: members, by simp [hm], ?_, ?_⟩
          · simpa using ⟨hkeyText, fun a b hab => hkeys (a, b) hab⟩
          · simpa using ⟨literalText_memberForm hfollow cs htidy value hvalue, fun a b hab => hvalues (a, b) hab⟩
      · exact ⟨members, hm, hkeys, hvalues⟩
    · refine ⟨(e.text, (follow e.text).getD absent) :: members, by simp [hm, Node.text, Node.extent], ?_, ?_⟩
      · simpa using ⟨.inl hshape, fun a b hab => hkeys (a, b) hab⟩
      · cases hf : follow e.text with
        | none => simpa using fun a b hab => hvalues (a, b) hab
        | some value => simpa using ⟨fun _ => hfollow _ value hf, fun a b hab => hvalues (a, b) hab⟩
    · exact ⟨members, hm, hkeys, hvalues⟩

theorem literalText_memberForm (hfollow : FollowsLiterals follow) : ∀ (cs : List Node), (∀ c ∈ cs, Tidy c) →
    ∀ text, memberForm follow cs = some text → text ≠ absent → LiteralText text
  | [], _, text, h, _ => by cases h
  | c :: cs, hcs, text, h, hne => by
    rw [memberForm] at h
    split at h
    · cases hs : serializeWith follow c with
      | none =>
        rw [hs] at h
        obtain rfl := Option.some.inj h
        exact absurd rfl hne
      | some value =>
        rw [hs] at h
        obtain rfl := Option.some.inj h
        exact literalText_serializeWith hfollow c (hcs c List.mem_cons_self) value hs
    · exact literalText_memberForm hfollow cs (fun d hd => hcs d (List.mem_cons_of_mem _ hd)) text h hne

end

end Serialize

/-! ## Tables -/

/-- The initial values of all variables of a table are tidy. -/
def TidyTable (table : DeclarationTable) : Prop :=
  ∀ name node value, table.lookup name = some (.variable node (some value)) → Tidy value

theorem tidy_of_mem_ownBindings {n : Node} (hn : Tidy n) {name : String} {node value : Node}
    (h : (name, .variable node (some value)) ∈ ownBindings n) : Tidy value := by
  obtain ⟨-, hform, hvalue, -⟩ := declarator_of_mem_ownBindings h
  exact tidy_of_isForm hn hform (by decide) (List.mem_of_find?_eq_some hvalue)

/-- A table stays tidy under the bindings of a tidy node. -/
theorem TidyTable.update {table : DeclarationTable} (ht : TidyTable table) {n : Node} (hn : Tidy n) :
    TidyTable (OrderedMap.update table (ownBindings n)) := by
  intro name node value h
  rw [OrderedMap.lookup_update, Option.or_eq_some_iff] at h
  rcases h with h | ⟨-, h⟩
  · obtain ⟨before, after, he, -⟩ := List.lookup_eq_some_iff.1 h
    have hm : (name, Declaration.variable node (some value)) ∈ (ownBindings n).reverse := by simp [he]
    exact tidy_of_mem_ownBindings hn (List.mem_reverse.1 hm)
  · exact ht name node value h

theorem collect_of_isExempt {k : Kind} {c : Node} (h : isExempt k c = true) (table : DeclarationTable) :
    collect table c = table := by
  obtain ⟨k', l, e, m, cs⟩ := c
  simp only [isExempt, Node.isForm, Node.kind, Node.children, Bool.and_eq_true, beq_iff_eq, List.isEmpty_iff] at h
  obtain ⟨⟨-, rfl⟩, rfl⟩ := h
  rfl

mutual

theorem tidyTable_collect : ∀ (n : Node) (table : DeclarationTable), Tidy n → TidyTable table →
    TidyTable (collect table n)
  | .mk k l e m cs, table, hn, ht => by
    rw [collect]
    split
    · exact ht.update hn
    · refine tidyTable_collectAll cs k _ ?_ (ht.update hn)
      cases hn with
      | mk _ children => exact children

theorem tidyTable_collectAll : ∀ (cs : List Node) (k : Kind) (table : DeclarationTable),
    (∀ c ∈ cs, isExempt k c = false → Tidy c) → TidyTable table → TidyTable (collectAll table cs)
  | [], _, table, _, ht => ht
  | c :: cs, k, table, hcs, ht => by
    rw [collectAll]
    refine tidyTable_collectAll cs k _ (fun d hd => hcs d (List.mem_cons_of_mem _ hd)) ?_
    cases he : isExempt k c with
    | true => rwa [collect_of_isExempt he]
    | false => exact tidyTable_collect c table (hcs c List.mem_cons_self he) ht

end

/-- The table of a tidy tree is tidy. -/
theorem tidyTable_ofTree {root : Node} (h : Tidy root) : TidyTable (DeclarationTable.ofTree root) :=
  tidyTable_collect root [] h fun _ _ _ h => by cases h

/-- The written form of a tidy expression is a literal, with the names of a tidy table followed. -/
theorem literalText_serializeWithin {table : DeclarationTable} (ht : TidyTable table) :
    ∀ (budget : Nat) (resolving : List String) (n : Node), Tidy n →
      ∀ text, serializeWithin table budget resolving n = some text → LiteralText text
  | 0, resolving, n, hn, text, h => by
    rw [serializeWithin] at h
    exact literalText_serializeWith (fun _ _ h => by cases h) n hn text h
  | budget + 1, resolving, n, hn, text, h => by
    rw [serializeWithin] at h
    refine literalText_serializeWith (fun name value hv => ?_) n hn text h
    split at hv
    · cases hv
    · split at hv
      · rename_i node init hl
        exact literalText_serializeWithin ht budget _ init (ht name node init hl) value hv
      · cases hv

/-- What is written for a tidy tree in a tidy table is a literal. -/
theorem literalText_serialize {table : DeclarationTable} (ht : TidyTable table) {n : Node} (hn : Tidy n)
    {text : String} (h : serialize table n = some text) : LiteralText text :=
  literalText_serializeWithin ht table.length [] n hn text h

end ModuleMock.Literal
