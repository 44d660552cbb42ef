import ModuleMock.Proofs.Literal.StringValue
import ModuleMock.Proofs.Render.Layout
import ModuleMock.Proofs.Surface.Members
import ModuleMock.Proofs.Text.IdentifierCharacter
import ModuleMock.Surface.Exports

/-!
# What the keys of rendered members stand for

A key that is written as a string is kept as it stands between its marks, and rendered as if it were the string itself.
So a rendered key in quotes stands for the written text (`propertyNameValue?_of_quoted`), which is the string only where
nothing is escaped (`cook_eq_units_iff`). A key that is rendered without quotes is a property name only if its
characters are those of names (`propertyNameValue?_of_plain`). Every member is rendered with such a key
(`Scope.expand_keeps_key_iff`).
-/

namespace ModuleMock

open Literal Script Syntax

/-- The units of a text that stands for itself. -/
def unitsOf (cs : List Char) : List UInt16 := cs.flatMap fun c => utf16 c.toNat

/-- The string that a property name stands for: a name as it is, or a string literal. Numbers are left out. -/
def propertyNameValue? (token : List Char) : Option (List UInt16) :=
  if Text.isIdentifierName token then some (unitsOf token) else quotedValue? token

/-! ## Names in quotes -/

/-- A name in quotes ends at the closing mark, unless a line ends before. -/
theorem untilMark_escapeKey (cs : List Char) :
    untilMark '\'' (cs.flatMap escapeKey ++ ['\'']) =
      if '\n' ∈ cs ∨ '\r' ∈ cs then none else some (cs.flatMap escapeKey, []) := by
  induction cs with
  | nil => rfl
  | cons c cs ih =>
    rw [List.flatMap_cons, List.append_assoc]
    by_cases hc : c = '\\' ∨ c = '\''
    · have hend : c ≠ '\r' ∧ c ≠ '\n' := by rcases hc with rfl | rfl <;> decide
      rw [escapeKey, if_pos hc, List.cons_append, List.cons_append, List.nil_append, untilMark_escape (.inl hend.1), ih]
      simp only [List.mem_cons, Ne.symm hend.1, Ne.symm hend.2, false_or]
      split <;> rfl
    · obtain ⟨hslash, hmark⟩ := not_or.1 hc
      rw [escapeKey, if_neg hc, List.cons_append, List.nil_append, untilMark, ih, if_neg hmark]
      · by_cases hend : c = '\n' ∨ c = '\r'
        · rw [if_pos hend, if_pos]
          rcases hend with rfl | rfl <;> simp
        · obtain ⟨hfeed, hreturn⟩ := not_or.1 hend
          rw [if_neg hend]
          simp only [List.mem_cons, Ne.symm hfeed, Ne.symm hreturn, false_or]
          split <;> rfl
      · exact fun _ e => absurd e hslash
      · exact fun _ _ e => absurd e hslash

/-- What is escaped in a name stands for itself. -/
theorem escape?_of_escaped {c : Char} (h : c = '\\' ∨ c = '\'') (rest : List Char) :
    escape? c rest = some (utf16 c.toNat, 0) := by
  rcases h with rfl | rfl <;> rfl

/-- The escapes of a key stand for its characters. -/
theorem cook_escapeKey (cs : List Char) : cook (cs.flatMap escapeKey) = unitsOf cs := by
  induction cs with
  | nil => rw [List.flatMap_nil, cook]; rfl
  | cons c cs ih =>
    rw [List.flatMap_cons, escapeKey, unitsOf, List.flatMap_cons, ← unitsOf, ← ih]
    split
    · rename_i hc
      exact cook_escape (escape?_of_escaped hc _)
    · rename_i hc
      exact cook_cons_of_ne (not_or.1 hc).1 _

/-- The escapes of a key without line ends can stand in a string. -/
theorem isBody_escapeKey {cs : List Char} (h : ¬ ('\n' ∈ cs ∨ '\r' ∈ cs)) :
    isBody '\'' (cs.flatMap escapeKey) = true := by
  induction cs with
  | nil => rw [List.flatMap_nil, isBody]
  | cons c cs ih =>
    simp only [List.mem_cons, not_or] at h ih
    have ih := ih ⟨h.1.2, h.2.2⟩
    rw [List.flatMap_cons, escapeKey]
    split
    · rename_i hc
      rw [List.cons_append, List.cons_append, List.nil_append, isBody, escape?_of_escaped hc]
      exact ih
    · rename_i hc
      obtain ⟨hslash, hmark⟩ := not_or.1 hc
      rw [List.cons_append, List.nil_append, isBody, ih]
      · simp [allowsPlain, hslash, hmark, Ne.symm h.1.1, Ne.symm h.2.1]
      · exact fun _ _ e => absurd e hslash

/-! ## Rendered keys -/

/-- A name without quotes stands for itself, if it is one. -/
theorem propertyNameValue?_of_plain {name : String} (h : isPlainName name = true) :
    propertyNameValue? (propertyName name).toList =
      if Text.isIdentifierName name.toList then some (unitsOf name.toList) else none := by
  rw [propertyName, if_pos h, propertyNameValue?]
  split
  · rfl
  · unfold isPlainName at h
    split at h
    · cases h
    · rename_i c cs hcs
      have hquote : ¬ (c = '"' ∨ c = '\'') := by
        rintro (rfl | rfl) <;> simp at h
      rw [hcs, quotedValue?, if_neg hquote]

/-- A name in quotes stands for itself, unless a line ends in it. -/
theorem propertyNameValue?_of_quoted {name : String} (h : isPlainName name = false) :
    propertyNameValue? (propertyName name).toList =
      if '\n' ∈ name.toList ∨ '\r' ∈ name.toList then none else some (unitsOf name.toList) := by
  have htoken : (propertyName name).toList = '\'' :: (name.toList.flatMap escapeKey ++ ['\'']) := by
    rw [propertyName, if_neg (by simp [h]), String.toList_ofList]
    rfl
  have hname : Text.isIdentifierName ('\'' :: (name.toList.flatMap escapeKey ++ ['\''])) = false := by
    rw [Text.isIdentifierName, show Text.isIdentifierStart '\'' = false by decide +kernel, Bool.false_and]
  rw [htoken, propertyNameValue?, hname, if_neg (by simp), quotedValue?, if_pos (.inr rfl), untilMark_escapeKey]
  split
  · rfl
  · rename_i hends
    rw [Option.bind_some, if_pos rfl, literalValue?, isBody_escapeKey hends, if_pos rfl, cook_escapeKey]

/-! ## Escapes in keys -/

theorem length_utf16_pos (n : Nat) : 1 ≤ (utf16 n).length := by
  unfold utf16
  split <;> simp

theorem length_utf16_le (n : Nat) : (utf16 n).length ≤ 2 := by
  unfold utf16
  split <;> simp

@[simp] theorem unitsOf_cons (c : Char) (cs : List Char) : unitsOf (c :: cs) = utf16 c.toNat ++ unitsOf cs := rfl

/-- Every character stands for one unit at least. -/
theorem length_unitsOf_drop {n : Nat} {cs : List Char} (h : n ≤ cs.length) :
    (unitsOf (cs.drop n)).length + n ≤ (unitsOf cs).length := by
  induction n generalizing cs with
  | zero => simp
  | succ n ih =>
    cases cs with
    | nil => simp at h
    | cons c cs =>
      have hc := length_utf16_pos c.toNat
      have hcs := ih (Nat.le_of_succ_le_succ h)
      simp only [List.drop_succ_cons, unitsOf_cons, List.length_append]
      omega

/-- A Unicode escape has no more units than characters. -/
theorem length_units_unicodeEscape? {tail : List Char} {units : List UInt16} {n : Nat}
    (h : unicodeEscape? tail = some (units, n)) : units.length ≤ n := by
  unfold unicodeEscape? at h
  split at h
  · dsimp only at h
    split at h
    · cases h
      exact (length_utf16_le _).trans (Nat.le_add_left _ _)
    · cases h
  · split at h
    · cases h
      simp
    · cases h
  · cases h

/-- An escape has no more units than its spelling. -/
theorem length_units_escape? {c : Char} {rest : List Char} {units : List UInt16} {n : Nat}
    (h : escape? c rest = some (units, n)) : units.length ≤ (utf16 c.toNat).length + n := by
  have hc := length_utf16_pos c.toNat
  unfold escape? at h
  dsimp only at h
  split at h
  · unfold hexEscape? at h
    split at h
    · split at h <;> cases h
      simp
    · cases h
  split at h
  · have hunits := length_units_unicodeEscape? h
    omega
  split at h
  · obtain ⟨rfl, rfl⟩ := Prod.mk.inj (Option.some.inj h)
    simp only [List.length_singleton]
    omega
  split at h
  · cases h
    simp
  split at h
  · cases h
    simp
  · cases h
    cases controlEscapes.lookup c with
    | none => simp
    | some unit =>
      simp only [Option.map_some, Option.getD_some, List.length_singleton]
      omega

/-- An escape ends inside the text. -/
theorem escape?_inside {c : Char} {rest : List Char} {units : List UInt16} {n : Nat}
    (h : escape? c rest = some (units, n)) : n ≤ rest.length := by
  by_cases hc : c = '\r'
  · subst hc
    rw [escape?_return] at h
    obtain ⟨-, rfl⟩ := Prod.mk.inj (Option.some.inj h)
    cases rest with
    | nil => simp
    | cons d ds => split <;> simp
  · exact (length_escape? hc h).trans (List.takeWhile_prefix _).length_le

/-- An escape stands for no more units than what follows its backslash would. -/
theorem length_escape?_le {c : Char} {rest : List Char} {units : List UInt16} {n : Nat}
    (h : escape? c rest = some (units, n)) : units.length + (unitsOf (rest.drop n)).length ≤
      (utf16 c.toNat).length + (unitsOf rest).length := by
  have hunits := length_units_escape? h
  have hrest := length_unitsOf_drop (escape?_inside h)
  omega

/-- A spelling never has fewer units than what it stands for. -/
theorem length_cook_le (cs : List Char) : (cook cs).length ≤ (unitsOf cs).length := by
  fun_induction cook cs with
  | case1 => simp
  | case2 c cs units n hesc ih =>
    have hunits := length_escape?_le hesc
    simp only [unitsOf_cons, List.length_append]
    omega
  | case3 c cs hesc ih =>
    simp only [unitsOf_cons, List.length_append]
    omega
  | case4 c cs hplain ih =>
    simp only [unitsOf_cons, List.length_append]
    omega

/-- A body stands for its own characters exactly if nothing is escaped in it. -/
theorem cook_eq_units_iff {quote : Char} {cs : List Char} (h : isBody quote cs = true) :
    cook cs = unitsOf cs ↔ '\\' ∉ cs := by
  fun_induction isBody quote cs with
  | case1 => simp [cook, unitsOf]
  | case2 c cs units n hesc ih =>
    constructor
    · intro heq
      have hlength := congrArg List.length heq
      have hunits := length_escape?_le hesc
      have hrest := length_cook_le (cs.drop n)
      have hslash := length_utf16_pos '\\'.toNat
      rw [cook_escape hesc] at hlength
      simp only [unitsOf_cons, List.length_append] at hlength
      omega
    · simp
  | case3 c cs hesc => cases h
  | case4 c cs hplain ih =>
    obtain ⟨hallows, h⟩ := Bool.and_eq_true_iff.1 h
    have hslash := ne_slash_of_allowsPlain hallows
    rw [cook_cons_of_ne hslash, unitsOf_cons, List.append_right_inj, ih h]
    simp [Ne.symm hslash]

/-- Without escapes no line ends between quotation marks. -/
theorem no_line_end_of_isBody {quote : Char} (hq : quote = '"' ∨ quote = '\'') {cs : List Char}
    (h : isBody quote cs = true) (hslash : '\\' ∉ cs) : ¬ ('\n' ∈ cs ∨ '\r' ∈ cs) := by
  have hquote : quote ≠ '`' := by rcases hq with rfl | rfl <;> decide
  fun_induction isBody quote cs with
  | case1 => simp
  | case2 => simp at hslash
  | case3 => cases h
  | case4 c cs hplain ih =>
    obtain ⟨hallows, h⟩ := Bool.and_eq_true_iff.1 h
    have ih := ih h fun hmem => hslash (List.mem_cons_of_mem c hmem)
    simp only [allowsPlain, hquote, if_false, Bool.and_eq_true, bne_iff_ne] at hallows
    simp only [List.mem_cons, not_or] at ih ⊢
    exact ⟨⟨Ne.symm hallows.2.1, ih.1⟩, ⟨Ne.symm hallows.2.2, ih.2⟩⟩

/-- The rendered key stands for the string of a literal exactly if the literal has no escapes and, where it is rendered
without quotes, its characters are those of a name. -/
theorem propertyNameValue?_eq_iff {quote : Char} (hq : quote = '"' ∨ quote = '\'') {name : String}
    (h : isBody quote name.toList = true) :
    propertyNameValue? (propertyName name).toList = some (cook name.toList) ↔
      '\\' ∉ name.toList ∧ (isPlainName name = true → Text.isIdentifierName name.toList = true) := by
  have hunits := cook_eq_units_iff h
  cases hplain : isPlainName name with
  | true =>
    rw [propertyNameValue?_of_plain hplain]
    constructor
    · intro hvalue
      split at hvalue
      · rename_i hname
        exact ⟨hunits.1 (Option.some.inj hvalue).symm, fun _ => hname⟩
      · cases hvalue
    · rintro ⟨hslash, hname⟩
      rw [if_pos (hname rfl), hunits.2 hslash]
  | false =>
    rw [propertyNameValue?_of_quoted hplain]
    constructor
    · intro hvalue
      split at hvalue
      · cases hvalue
      · exact ⟨hunits.1 (Option.some.inj hvalue).symm, by simp⟩
    · rintro ⟨hslash, -⟩
      rw [if_neg (no_line_end_of_isBody hq h hslash), hunits.2 hslash]

/-! ## Members -/

/-- What is rendered for a member begins with its key, behind tabs, and a colon or a parenthesis follows it. -/
theorem renderMember_key (indent : Int) (name : String) (e : Entity) : ∃ mark rest, (mark = ':' ∨ mark = '(') ∧
    (renderMember indent name e).toList = (tabs indent).toList ++ ((propertyName name).toList ++ mark :: rest) := by
  cases e with
  | constant value =>
    refine ⟨':', ' ' :: value.toList, .inl rfl, ?_⟩
    simp [renderMember, toString]
  | function params result =>
    refine ⟨'(', ((", ".intercalate params) ++ ") \x7b\n" ++ tabs indent ++ "\treturn " ++ result ++ ";\n"
      ++ tabs indent ++ "\x7d").toList, .inr rfl, ?_⟩
    simp [renderMember, toString]
  | object props =>
    rw [renderMember]
    split
    · refine ⟨':', " \x7b\x7d".toList, .inl rfl, ?_⟩
      simp [toString]
    · refine ⟨':', (" \x7b\n" ++ ",\n".intercalate (renderEach (indent + 1) props) ++ "\n" ++ tabs indent
        ++ "\x7d").toList, .inl rfl, ?_⟩
      simp [toString]

/-- Members are rendered one by one. -/
theorem renderEach_eq_map (indent : Int) (m : List (String × Entity)) :
    renderEach indent m = m.map fun p => renderMember indent p.1 p.2 := by
  induction m with
  | nil => rfl
  | cons p m ih => rw [renderEach, ih, List.map_cons]

namespace Scope

/-- The key of a member, if it is written as a string. -/
def stringKey? (n : Node) : Option Node :=
  if n.isForm .methodDefinition then (n.child? .name).filter (·.isForm .string)
  else if n.isForm .pair then (n.child? .value).bind fun _ => (n.child? .key).filter (·.isForm .string)
  else none

theorem propertyKey?_of_string {key : Option Node} {k : Node} (h : key.filter (·.isForm .string) = some k) :
    propertyKey? key = some k.stringValue := by
  obtain ⟨rfl, hk⟩ := Option.filter_eq_some_iff.1 h
  rw [Node.isForm, beq_iff_eq] at hk
  simp [propertyKey?, Node.isForm, hk]

/-- A key that is a string is fixed. -/
theorem staticKey?_of_stringKey? {n key : Node} (h : stringKey? n = some key) :
    staticKey? n = some key.stringValue := by
  unfold stringKey? at h
  unfold staticKey?
  split at h
  · rename_i hmethod
    rw [if_pos hmethod, propertyKey?_of_string h]
  · rename_i hmethod
    rw [if_neg hmethod]
    split at h
    · rename_i hpair
      obtain ⟨value, hvalue, h⟩ := Option.bind_eq_some_iff.1 h
      rw [if_pos hpair, hvalue, Option.bind_some, propertyKey?_of_string h]
    · cases h

/-- What a member defines is rendered as one of the members, behind tabs and with a colon or a parenthesis after the
key. -/
theorem renderMembers_of_staticKey? (scope : Scope) {members : List Node} {n : Node} (hn : n ∈ members) {name : String}
    (hname : staticKey? n = some name) (indent : Int) :
    ∃ before after mark rest, (mark = ':' ∨ mark = '(') ∧
      renderMembers indent (scope.expand [] members) = ",\n".intercalate (before ++
        String.ofList ((tabs indent).toList ++ ((propertyName name).toList ++ mark :: rest)) :: after) := by
  have hmem : name ∈ OrderedMap.keys (scope.expand [] members) := by
    rw [(scope.membersOf_expand members).keys_eq, List.mem_eraseDups]
    exact List.mem_filterMap.2 ⟨n, hn, hname⟩
  obtain ⟨⟨_, e⟩, he, rfl⟩ := List.mem_map.1 hmem
  obtain ⟨before, after, hsplit⟩ := List.append_of_mem he
  obtain ⟨mark, rest, hmark, hmember⟩ := renderMember_key indent _ e
  refine ⟨before.map fun p => renderMember indent p.1 p.2, after.map fun p => renderMember indent p.1 p.2, mark, rest,
    hmark, ?_⟩
  rw [renderMembers, renderEach_eq_map, hsplit, ← hmember, String.ofList_toList, List.map_append, List.map_cons]

/-- **Keys without escapes keep their name.** Let a member of an object literal have a string for its key, which stands
for some units. The member is rendered, behind tabs and with a colon or a parenthesis after its key. The rendered key
stands for the same units exactly if nothing is escaped in the string and, where no quotes are needed, it is a name. -/
theorem expand_keeps_key_iff (scope : Scope) {members : List Node} {n key : Node} (hn : n ∈ members)
    (hkey : stringKey? n = some key) {quote : Char} (hq : quote = '"' ∨ quote = '\'') {body : List Char}
    (htext : key.text.toList = quote :: (body ++ [quote])) {units : List UInt16}
    (hunits : literalValue? quote body = some units) (indent : Int) :
    (∃ before after mark rest, (mark = ':' ∨ mark = '(') ∧
      renderMembers indent (scope.expand [] members) = ",\n".intercalate (before ++
        String.ofList ((tabs indent).toList ++ ((propertyName key.stringValue).toList ++ mark :: rest)) :: after)) ∧
    (propertyNameValue? (propertyName key.stringValue).toList = some units ↔
      '\\' ∉ body ∧ (isPlainName (String.ofList body) = true → Text.isIdentifierName body = true)) := by
  refine ⟨scope.renderMembers_of_staticKey? hn (staticKey?_of_stringKey? hkey) indent, ?_⟩
  unfold literalValue? at hunits
  split at hunits
  · rename_i hbody
    obtain rfl := Option.some.inj hunits
    have hname : (String.ofList body).toList = body := String.toList_ofList
    have hiff := propertyNameValue?_eq_iff hq (hname.symm ▸ hbody)
    rw [stringValue_of_text htext]
    rwa [hname] at hiff
  · cases hunits

/-- The members of an object literal that is the default export of a text. -/
def exportedMembers (text : String) : List Node :=
  ((ModuleView.exportStatements (Script.parse .plain text)).head?.bind ModuleView.defaultSubject?).elim [] Node.children

def emptyScope : Scope := ⟨[], fun _ => none⟩

/-- Nothing is escaped in the key, though its mark is escaped where it is rendered. -/
def otherMarkText : String := "export default \x7b \"it's\": 1 \x7d"

theorem expand_keeps_other_mark : ∃ before after mark rest, (mark = ':' ∨ mark = '(') ∧
    renderMembers 2 (emptyScope.expand [] (exportedMembers otherMarkText)) = ",\n".intercalate (before ++
      String.ofList ((tabs 2).toList ++ ("'it\\'s'".toList ++ mark :: rest)) :: after) ∧
    propertyNameValue? "'it\\'s'".toList = literalValue? '"' "it's".toList := by
  have hparsed : ∃ n ∈ exportedMembers otherMarkText, (stringKey? n).map Node.text = some "\"it's\"" := by
    decide +kernel
  obtain ⟨n, hn, hkey⟩ := hparsed
  obtain ⟨key, hkey, htext⟩ := Option.map_eq_some_iff.1 hkey
  have htext : key.text.toList = '"' :: ("it's".toList ++ ['"']) := by rw [htext]; decide +kernel
  have hname : (propertyName key.stringValue).toList = "'it\\'s'".toList := by
    rw [stringValue_of_text htext]
    decide +kernel
  have hunits : literalValue? '"' "it's".toList = some (unitsOf "it's".toList) := by decide +kernel
  obtain ⟨⟨before, after, mark, rest, hmark, hrendered⟩, hiff⟩ :=
    expand_keeps_key_iff emptyScope hn hkey (.inl rfl) htext hunits 2
  rw [hname] at hrendered hiff
  refine ⟨before, after, mark, rest, hmark, hrendered, ?_⟩
  rw [hunits]
  exact hiff.2 (by decide +kernel)

/-- The mark is escaped in the key. -/
def escapedMarkText : String := "export default \x7b 'it\\'s': 1 \x7d"

/-- A key with an escape is rendered with its backslash escaped in turn, so that it stands for another string. -/
theorem expand_renames_escaped_mark : (∃ before after mark rest, (mark = ':' ∨ mark = '(') ∧
      renderMembers 2 (emptyScope.expand [] (exportedMembers escapedMarkText)) = ",\n".intercalate (before ++
        String.ofList ((tabs 2).toList ++ ("'it\\\\\\'s'".toList ++ mark :: rest)) :: after)) ∧
    literalValue? '\'' "it\\'s".toList = some (unitsOf "it's".toList) ∧
    propertyNameValue? "'it\\\\\\'s'".toList = some (unitsOf "it\\'s".toList) ∧
    unitsOf "it\\'s".toList ≠ unitsOf "it's".toList := by
  have hparsed : ∃ n ∈ exportedMembers escapedMarkText, staticKey? n = some "it\\'s" := by decide +kernel
  obtain ⟨n, hn, hkey⟩ := hparsed
  have hname : (propertyName "it\\'s").toList = "'it\\\\\\'s'".toList := by decide +kernel
  have hrendered := emptyScope.renderMembers_of_staticKey? hn hkey 2
  rw [hname] at hrendered
  exact ⟨hrendered, by decide +kernel, by decide +kernel, by decide +kernel⟩

end Scope

end ModuleMock
