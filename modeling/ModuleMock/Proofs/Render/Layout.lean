import ModuleMock.Render

/-!
# The layout of rendered members

Members are rendered one a line, those of an object one tab further in. A line of a member list at level `n` starts a
member there exactly if its character `n` is neither a tab nor a closing brace (`opensAt`), so the lines of a list fall
apart into its members in one way only (`blockLines_inj`), and the key at the start of a line ends in one way only
(`propertyName_inj`).

- `Entity.canonical`: what can be told from the text of an entity: all of it, except how its parameters are divided and
  whether an empty object is a constant.
- `renderMembers_eq_iff`: two lists of members without line feeds have the same text exactly if they are the same in
  this sense.
-/

namespace ModuleMock

/-! ## What the text of an entity tells -/

mutual

/-- An entity as its text tells it: parameters are one text, and an empty object is a constant. -/
def Entity.canonical : Entity → Entity
  | .function params result => .function [", ".intercalate params] result
  | .constant value => .constant value
  | .object props => if props.isEmpty then .constant "\x7b\x7d" else .object (canonicalMembers props)

def canonicalMembers : List (String × Entity) → List (String × Entity)
  | [] => []
  | (name, e) :: m => (name, e.canonical) :: canonicalMembers m

end

mutual

/-- No text in the entity has a line feed. -/
def Entity.OnOneLine : Entity → Prop
  | .function params result => (∀ p ∈ params, '\n' ∉ p.toList) ∧ '\n' ∉ result.toList
  | .constant value => '\n' ∉ value.toList
  | .object props => MembersOnOneLine props

def MembersOnOneLine : List (String × Entity) → Prop
  | [] => True
  | (name, e) :: m => '\n' ∉ name.toList ∧ e.OnOneLine ∧ MembersOnOneLine m

end

/-! ## Keys -/

/-- Characters of names that need no quotes. -/
def isKeyPart (c : Char) : Bool := Text.isWordCharacter c || c == '$'

/-- A character of a name in quotes. -/
def escapeKey (c : Char) : List Char := if c = '\\' ∨ c = '\'' then ['\\', c] else [c]

/-- A key is a name as it is or in quotes, told apart by its first character. -/
theorem propertyName_cases {name : String} (h : '\n' ∉ name.toList) :
    (∃ c cs, c ≠ '\'' ∧ c ≠ '\t' ∧ c ≠ '\x7d' ∧ name.toList = c :: cs ∧ (∀ x ∈ cs, isKeyPart x = true) ∧
      (propertyName name).toList = c :: cs) ∨
    (propertyName name).toList = '\'' :: (name.toList.flatMap escapeKey ++ ['\'']) := by
  unfold propertyName
  split
  · rename_i hp
    left
    unfold isPlainName at hp
    split at hp
    · cases hp
    · rename_i c cs hcs
      have hlast : cs.getLast? ≠ some '\n' := fun e => h (hcs ▸ List.mem_cons_of_mem c (List.mem_of_getLast? e))
      simp only [if_neg hlast, Bool.and_eq_true, List.all_eq_true] at hp
      refine ⟨c, cs, ?_, ?_, ?_, hcs, hp.2, hcs⟩ <;> rintro rfl <;> exact absurd hp.1 (by decide)
  · right
    simp [show escapeKey = fun c => if c = '\\' ∨ c = '\'' then ['\\', c] else [c] from rfl]

/-- A plain key ends at the mark after it. -/
theorem takeWhile_key {cs x : List Char} {c : Char} (hcs : ∀ a ∈ cs, isKeyPart a = true) (hc : c = ':' ∨ c = '(') :
    (cs ++ c :: x).takeWhile isKeyPart = cs := by
  have hstop : isKeyPart c = false := by rcases hc with rfl | rfl <;> decide +kernel
  rw [List.takeWhile_append_of_pos hcs, List.takeWhile_cons_of_neg (by simp [hstop]), List.append_nil]

/-- A quoted key can be told from what follows it. -/
theorem escapeKey_inj : ∀ {cs cs' x x' : List Char},
    cs.flatMap escapeKey ++ '\'' :: x = cs'.flatMap escapeKey ++ '\'' :: x' → cs = cs' ∧ x = x'
  | [], [], _, _, h => ⟨rfl, (List.cons.inj h).2⟩
  | [], c' :: cs', x, x', h => by
    by_cases hc : c' = '\\' ∨ c' = '\''
    · simp [escapeKey, hc] at h
    · have := (List.cons.inj (by simpa [escapeKey, hc] using h)).1
      exact absurd (Or.inr this.symm) hc
  | c :: cs, [], x, x', h => by
    by_cases hc : c = '\\' ∨ c = '\''
    · simp [escapeKey, hc] at h
    · have := (List.cons.inj (by simpa [escapeKey, hc] using h)).1
      exact absurd (Or.inr this) hc
  | c :: cs, c' :: cs', x, x', h => by
    have hstep : c = c' ∧ cs.flatMap escapeKey ++ '\'' :: x = cs'.flatMap escapeKey ++ '\'' :: x' := by
      by_cases hc : c = '\\' ∨ c = '\'' <;> by_cases hc' : c' = '\\' ∨ c' = '\''
      · simpa [escapeKey, hc, hc'] using h
      · simp [escapeKey, hc, hc'] at h
        grind
      · simp [escapeKey, hc, hc'] at h
        grind
      · simpa [escapeKey, hc, hc'] using h
    obtain ⟨rfl, hx⟩ := escapeKey_inj hstep.2
    exact ⟨by rw [hstep.1], hx⟩

/-- A key before a colon or a parenthesis can be read in one way only. -/
theorem propertyName_inj {name name' : String} (h : '\n' ∉ name.toList) (h' : '\n' ∉ name'.toList) {c c' : Char}
    {x x' : List Char} (hc : c = ':' ∨ c = '(') (hc' : c' = ':' ∨ c' = '(')
    (he : (propertyName name).toList ++ c :: x = (propertyName name').toList ++ c' :: x') :
    name = name' ∧ c = c' ∧ x = x' := by
  rcases propertyName_cases h with ⟨a, cs, ha, -, -, hn, hcs, ht⟩ | ht <;>
    rcases propertyName_cases h' with ⟨a', cs', ha', -, -, hn', hcs', ht'⟩ | ht' <;> rw [ht, ht'] at he
  · simp only [List.cons_append] at he
    obtain ⟨rfl, htail⟩ := List.cons.inj he
    have hsame : cs = cs' := by
      have := congrArg (List.takeWhile isKeyPart) htail
      rwa [takeWhile_key hcs hc, takeWhile_key hcs' hc'] at this
    subst hsame
    obtain ⟨rfl, rfl⟩ := List.cons.inj (List.append_cancel_left htail)
    exact ⟨String.toList_injective (hn.trans hn'.symm), rfl, rfl⟩
  · exact absurd (List.cons.inj he).1 ha
  · exact absurd (List.cons.inj he).1.symm ha'
  · simp only [List.cons_append, List.append_assoc] at he
    obtain ⟨hn, hx⟩ := escapeKey_inj (List.cons.inj he).2
    obtain ⟨rfl, rfl⟩ := List.cons.inj hx
    exact ⟨String.toList_injective hn, rfl, rfl⟩

/-! ## Lines -/

namespace Layout

abbrev Line := List Char

def tab (n : Nat) : Line := List.replicate n '\t'

/-- A line that starts a member: its key, and what follows the key. -/
def head (n : Nat) (name : String) (after : Line) : Line := tab n ++ ((propertyName name).toList ++ after)

mutual

/-- The lines of a member, with what ends the last one. -/
def memberLines (n : Nat) (name : String) (stop : Line) : Entity → List Line
  | .constant value => [head n name (':' :: ' ' :: (value.toList ++ stop))]
  | .function params result =>
    [head n name ('(' :: ((", ".intercalate params).toList ++ [')', ' ', '\x7b'])),
      tab (n + 1) ++ ("return ".toList ++ (result.toList ++ [';'])),
      tab n ++ ('\x7d' :: stop)]
  | .object props =>
    if props.isEmpty then [head n name (':' :: ' ' :: '\x7b' :: '\x7d' :: stop)]
    else head n name [':', ' ', '\x7b'] :: (blockLines (n + 1) props ++ [tab n ++ ('\x7d' :: stop)])

/-- The lines of a list of members; all members but the last end with a comma. -/
def blockLines (n : Nat) : List (String × Entity) → List Line
  | [] => []
  | (name, e) :: m => memberLines n name (if m.isEmpty then [] else [',']) e ++ blockLines n m

end

/-- An empty object has the lines of a constant. -/
theorem memberLines_empty {n : Nat} {name : String} {stop : Line} {props : List (String × Entity)}
    (h : props.isEmpty = true) :
    memberLines n name stop (.object props) = memberLines n name stop (.constant "\x7b\x7d") := by
  simp [memberLines, h]

/-- Every member has a line. -/
theorem memberLines_ne_nil (n : Nat) (name : String) (stop : Line) (e : Entity) : memberLines n name stop e ≠ [] := by
  cases e <;> simp only [memberLines]
  · simp
  · simp
  · split <;> simp

theorem blockLines_eq_nil {n : Nat} {m : List (String × Entity)} : blockLines n m = [] ↔ m = [] := by
  cases m with
  | nil => simp [blockLines]
  | cons p m => simp [blockLines, memberLines_ne_nil]

theorem tab_add_one (n : Nat) : tab (n + 1) = tab n ++ ['\t'] := List.replicate_succ'

mutual

/-- All lines of a member are indented with it. -/
theorem indented_memberLines (n : Nat) (name : String) (stop : Line) : ∀ e : Entity,
    ∀ l ∈ memberLines n name stop e, tab n <+: l
  | .constant value => by
    simp only [memberLines, List.mem_singleton, forall_eq]
    exact List.prefix_append _ _
  | .function params result => by
    simp only [memberLines, List.mem_cons, List.not_mem_nil, or_false, forall_eq_or_imp, forall_eq, tab_add_one,
      List.append_assoc]
    exact ⟨List.prefix_append _ _, List.prefix_append _ _, List.prefix_append _ _⟩
  | .object props => by
    intro l hl
    simp only [memberLines] at hl
    split at hl
    · rw [List.mem_singleton.1 hl]
      exact List.prefix_append _ _
    · rcases List.mem_cons.1 hl with rfl | hl
      · exact List.prefix_append _ _
      · rcases List.mem_append.1 hl with hl | hl
        · have h := indented_blockLines (n + 1) props l hl
          rw [tab_add_one] at h
          exact (List.prefix_append _ _).trans h
        · rw [List.mem_singleton.1 hl]
          exact List.prefix_append _ _

/-- All lines of a block are indented with it. -/
theorem indented_blockLines (n : Nat) : ∀ m : List (String × Entity), ∀ l ∈ blockLines n m, tab n <+: l
  | [], l, hl => by simp [blockLines] at hl
  | (name, e) :: m, l, hl => by
    rw [blockLines] at hl
    rcases List.mem_append.1 hl with hl | hl
    · exact indented_memberLines n name _ e l hl
    · exact indented_blockLines n m l hl

end

/-! ## Where members start -/

/-- Does a line start a member at this level? -/
def opensAt (n : Nat) (l : Line) : Bool := l[n]? ≠ some '\t' ∧ l[n]? ≠ some '\x7d'

theorem opensAt_tab_append (n : Nat) (l : Line) : opensAt n (tab n ++ l) = (l.head? ≠ some '\t' ∧ l.head? ≠ some '\x7d' : Bool) := by
  simp [opensAt, tab, List.getElem?_append_right, List.head?_eq_getElem?]

/-- Only the first line of a member starts one; its key is followed by a colon or a parenthesis. -/
theorem memberLines_cons (n : Nat) (name : String) (stop : Line) (e : Entity) :
    ∃ c after ls, (c = ':' ∨ c = '(') ∧ memberLines n name stop e = head n name (c :: after) :: ls ∧
      ∀ l ∈ ls, opensAt n l = false := by
  have hclose : opensAt n (tab n ++ ('\x7d' :: stop)) = false := by simp [opensAt_tab_append]
  cases e with
  | constant value => exact ⟨':', _, [], Or.inl rfl, rfl, by simp⟩
  | function params result =>
    refine ⟨'(', _, _, Or.inr rfl, rfl, ?_⟩
    simp only [List.mem_cons, List.not_mem_nil, or_false, forall_eq_or_imp, forall_eq]
    refine ⟨?_, hclose⟩
    rw [tab_add_one, List.append_assoc, opensAt_tab_append]
    rfl
  | object props =>
    simp only [memberLines]
    split
    · exact ⟨':', _, [], Or.inl rfl, rfl, by simp⟩
    · refine ⟨':', _, _, Or.inl rfl, rfl, fun l hl => ?_⟩
      rcases List.mem_append.1 hl with hl | hl
      · obtain ⟨rest, rfl⟩ := indented_blockLines (n + 1) props l hl
        rw [tab_add_one, List.append_assoc, opensAt_tab_append]
        rfl
      · rw [List.mem_singleton.1 hl]
        exact hclose

/-- The first line of a list of members starts a member. -/
theorem blockLines_opens {n : Nat} {name : String} {e : Entity} {m : List (String × Entity)} (h : '\n' ∉ name.toList) :
    ∃ l ls, blockLines n ((name, e) :: m) = l :: ls ∧ opensAt n l = true := by
  obtain ⟨c, after, ls, -, hl, -⟩ := memberLines_cons n name (if m.isEmpty then [] else [',']) e
  refine ⟨_, _, by rw [blockLines, hl]; rfl, ?_⟩
  rw [head, opensAt_tab_append]
  rcases propertyName_cases h with ⟨a, cs, -, h1, h2, -, -, ht⟩ | ht
  · simp [ht, h1, h2]
  · simp [ht]

/-- The lines of a list fall apart into those of the first member and those of the others. -/
theorem memberLines_append_inj {n : Nat} {name name' : String} {stop stop' : Line} {e e' : Entity}
    {m m' : List (String × Entity)} (hm : MembersOnOneLine m) (hm' : MembersOnOneLine m')
    (h : memberLines n name stop e ++ blockLines n m = memberLines n name' stop' e' ++ blockLines n m') :
    memberLines n name stop e = memberLines n name' stop' e' ∧ blockLines n m = blockLines n m' := by
  have hrest : ∀ {m : List (String × Entity)}, MembersOnOneLine m →
      (blockLines n m).takeWhile (fun l => !opensAt n l) = [] := by
    intro m hm
    match m, hm with
    | [], _ => rfl
    | (name, e) :: m, hm =>
      obtain ⟨l, ls, hl, ho⟩ := blockLines_opens (n := n) (e := e) (m := m) hm.1
      rw [hl, List.takeWhile_cons_of_neg (by simp [ho])]
  obtain ⟨c, after, ls, -, hl, hls⟩ := memberLines_cons n name stop e
  obtain ⟨c', after', ls', -, hl', hls'⟩ := memberLines_cons n name' stop' e'
  rw [hl, hl', List.cons_append, List.cons_append] at h
  obtain ⟨hhead, htail⟩ := List.cons.inj h
  have hsame : ls = ls' := by
    have := congrArg (List.takeWhile fun l => !opensAt n l) htail
    rwa [List.takeWhile_append_of_pos (by simpa using hls), List.takeWhile_append_of_pos (by simpa using hls'),
      hrest hm, hrest hm', List.append_nil, List.append_nil] at this
  subst hsame
  exact ⟨by rw [hl, hl', hhead], List.append_cancel_left htail⟩

/-- The first line of a member tells its name, and what comes after. -/
theorem head_inj {n : Nat} {name name' : String} (h : '\n' ∉ name.toList) (h' : '\n' ∉ name'.toList) {c c' : Char}
    {x x' : List Char} (hc : c = ':' ∨ c = '(') (hc' : c' = ':' ∨ c' = '(')
    (he : head n name (c :: x) = head n name' (c' :: x')) : name = name' ∧ c = c' ∧ x = x' :=
  propertyName_inj h h' hc hc' (List.append_cancel_left he)

/-- The lines of a constant are those of no other member. -/
theorem memberLines_constant_inj {n : Nat} {name name' value : String} {stop : Line} {e : Entity}
    (h : '\n' ∉ name.toList) (h' : '\n' ∉ name'.toList)
    (he : memberLines n name stop (.constant value) = memberLines n name' stop e) :
    name = name' ∧ e.canonical = .constant value := by
  cases e with
  | function params result => simp [memberLines] at he
  | constant value' =>
    simp only [memberLines, List.cons.injEq, and_true] at he
    obtain ⟨rfl, -, hv⟩ := head_inj h h' (Or.inl rfl) (Or.inl rfl) he
    have hv : value.toList ++ stop = value'.toList ++ stop := (List.cons.inj hv).2
    exact ⟨rfl, by rw [String.toList_injective (List.append_cancel_right hv), Entity.canonical]⟩
  | object props =>
    cases props with
    | cons p props =>
      have := congrArg List.length he
      simp [memberLines] at this
    | nil =>
      simp only [memberLines, List.isEmpty_nil, if_true, List.cons.injEq, and_true] at he
      obtain ⟨rfl, -, hv⟩ := head_inj h h' (Or.inl rfl) (Or.inl rfl) he
      have hv : value.toList ++ stop = "\x7b\x7d".toList ++ stop := (List.cons.inj hv).2
      exact ⟨rfl, by rw [String.toList_injective (List.append_cancel_right hv)]; rfl⟩

/-- The line of a function is the line of no other entity. -/
theorem memberLines_function_inj {n : Nat} {name name' result : String} {params : List String} {stop : Line}
    {e : Entity} (h : '\n' ∉ name.toList) (h' : '\n' ∉ name'.toList)
    (he : memberLines n name stop (.function params result) = memberLines n name' stop e) :
    name = name' ∧ e.canonical = .function [", ".intercalate params] result := by
  cases e with
  | constant value => simp [memberLines] at he
  | function params' result' =>
    simp only [memberLines, List.cons.injEq, and_true] at he
    obtain ⟨rfl, -, hparams⟩ := head_inj h h' (Or.inr rfl) (Or.inr rfl) he.1
    have hparams := String.toList_injective (List.append_cancel_right hparams)
    have hresult := List.append_cancel_right (List.append_cancel_left (List.append_cancel_left he.2))
    exact ⟨rfl, by rw [Entity.canonical, hparams, String.toList_injective hresult]⟩
  | object props =>
    cases props with
    | nil => simp [memberLines] at he
    | cons p props =>
      simp only [memberLines, List.isEmpty_cons, Bool.false_eq_true, if_false, List.cons.injEq] at he
      exact absurd (head_inj h h' (Or.inr rfl) (Or.inl rfl) he.1).2.1 (by decide)

mutual

/-- The lines of a member tell its name and its entity. -/
theorem memberLines_inj {n : Nat} {name name' : String} {stop : Line} (h : '\n' ∉ name.toList)
    (h' : '\n' ∉ name'.toList) : ∀ {e e' : Entity}, e.OnOneLine → e'.OnOneLine →
    memberLines n name stop e = memberLines n name' stop e' → name = name' ∧ e.canonical = e'.canonical
  | .constant value, e', _, _, he => by
    obtain ⟨hn, hc⟩ := memberLines_constant_inj h h' he
    exact ⟨hn, by rw [hc, Entity.canonical]⟩
  | .function params result, e', _, _, he => by
    obtain ⟨hn, hc⟩ := memberLines_function_inj h h' he
    exact ⟨hn, by rw [hc, Entity.canonical]⟩
  | .object props, .constant value, _, _, he => by
    obtain ⟨hn, hc⟩ := memberLines_constant_inj h' h he.symm
    exact ⟨hn.symm, by rw [hc, Entity.canonical]⟩
  | .object props, .function params result, _, _, he => by
    obtain ⟨hn, hc⟩ := memberLines_function_inj h' h he.symm
    exact ⟨hn.symm, by rw [hc, Entity.canonical]⟩
  | .object props, .object props', ho, ho', he => by
    cases hp : props.isEmpty with
    | true =>
      obtain ⟨hn, hc⟩ := memberLines_constant_inj h h' (memberLines_empty hp ▸ he)
      exact ⟨hn, by rw [hc, Entity.canonical, hp]; rfl⟩
    | false =>
      cases hp' : props'.isEmpty with
      | true =>
        obtain ⟨hn, hc⟩ := memberLines_constant_inj h' h (memberLines_empty hp' ▸ he.symm)
        exact ⟨hn.symm, by rw [hc, Entity.canonical, hp']; rfl⟩
      | false =>
        simp only [memberLines, hp, hp', Bool.false_eq_true, if_false, List.cons.injEq] at he
        obtain ⟨rfl, -, -⟩ := head_inj h h' (Or.inl rfl) (Or.inl rfl) he.1
        have hprops := blockLines_inj ho ho' (List.append_cancel_right he.2)
        exact ⟨rfl, by simp [Entity.canonical, hp, hp', hprops]⟩

/-- The lines of a block tell its members. -/
theorem blockLines_inj {n : Nat} : ∀ {m m' : List (String × Entity)}, MembersOnOneLine m → MembersOnOneLine m' →
    blockLines n m = blockLines n m' → canonicalMembers m = canonicalMembers m'
  | [], m', _, _, h => by
    rw [blockLines_eq_nil.1 h.symm]
  | p :: m, [], _, _, h => by
    cases blockLines_eq_nil.1 h
  | (name, e) :: m, (name', e') :: m', hm, hm', h => by
    rw [blockLines, blockLines] at h
    obtain ⟨hfirst, hrest⟩ := memberLines_append_inj hm.2.2 hm'.2.2 h
    have hempty : m.isEmpty = m'.isEmpty := by
      rw [Bool.eq_iff_iff, List.isEmpty_iff, List.isEmpty_iff, ← blockLines_eq_nil (n := n), hrest, blockLines_eq_nil]
    rw [hempty] at hfirst
    obtain ⟨rfl, he⟩ := memberLines_inj hm.1 hm'.1 hm.2.1 hm'.2.1 hfirst
    rw [canonicalMembers, canonicalMembers, he, blockLines_inj hm.2.2 hm'.2.2 hrest]

end

/-! ## Texts -/

/-- The text of lines. -/
def text (lines : List Line) : List Char := ['\n'].intercalate lines

/-- Lines are joined by line ends. -/
theorem text_append {ls ls' : List Line} (h : ls ≠ []) (h' : ls' ≠ []) :
    text (ls ++ ls') = text ls ++ '\n' :: text ls' := by
  induction ls with
  | nil => exact absurd rfl h
  | cons l ls ih =>
    cases ls with
    | nil =>
      obtain ⟨l', ls', rfl⟩ := List.exists_cons_of_ne_nil h'
      simp [text, List.intercalate_cons_cons]
    | cons l₂ ls =>
      have ih := ih (List.cons_ne_nil _ _)
      simp only [text, List.cons_append, List.intercalate_cons_cons] at ih ⊢
      simp [ih]

theorem toList_tabs (n : Nat) : (tabs n).toList = tab n := by simp [tabs, tab]

theorem toList_renderMembers (n : Nat) (m : List (String × Entity)) :
    (renderMembers n m).toList = [',', '\n'].intercalate ((renderEach n m).map String.toList) := by
  simp [renderMembers, String.toList_intercalate]

theorem text_blockLines_ne_nil {n : Nat} {p : String × Entity} {m : List (String × Entity)} :
    text (blockLines n (p :: m)) ≠ [] := by
  obtain ⟨c, after, ls, -, hl, -⟩ := memberLines_cons n p.1 (if m.isEmpty then [] else [',']) p.2
  rw [blockLines, hl]
  cases h : ls ++ blockLines n m <;> simp [text, head, List.intercalate_cons_cons, h]

mutual

/-- The lines of a member make up its rendering. -/
theorem text_memberLines (n : Nat) (name : String) (stop : Line) : ∀ e : Entity,
    text (memberLines n name stop e) = (renderMember n name e).toList ++ stop
  | .constant value => by
    simp only [renderMember, toString, String.toList_append, toList_tabs]
    simp [memberLines, text, head]
  | .function params result => by
    simp only [renderMember, toString, String.toList_append, toList_tabs]
    simp [memberLines, text, head, List.intercalate_cons_cons, tab, List.replicate_succ']
  | .object props => by
    have hb := text_blockLines (n + 1) props
    have hbody : ",\n".intercalate (renderEach (↑n + 1) props) = renderMembers ↑(n + 1) props := rfl
    simp only [renderMember, toString, memberLines, hbody]
    cases props with
    | nil =>
      rw [if_pos (by rfl), if_pos (by rfl)]
      simp [text, head, toList_tabs]
    | cons p props =>
      have hne : blockLines (n + 1) (p :: props) ≠ [] := fun h => by cases blockLines_eq_nil.1 h
      have hbody : renderMembers ↑(n + 1) (p :: props) ≠ "" := fun h =>
        text_blockLines_ne_nil (hb.trans (by rw [h]; rfl))
      rw [if_neg (by simp), if_neg hbody, ← List.singleton_append, text_append (by simp) (by simp),
        text_append hne (by simp), hb]
      simp [text, head, toList_tabs]

/-- The lines of a block make up the rendering of its members. -/
theorem text_blockLines (n : Nat) : ∀ m : List (String × Entity), text (blockLines n m) = (renderMembers n m).toList
  | [] => rfl
  | (name, e) :: m => by
    have he := text_memberLines n name (if m.isEmpty then [] else [',']) e
    have hm := text_blockLines n m
    rw [toList_renderMembers] at hm ⊢
    cases m with
    | nil => simpa [blockLines, renderEach] using he
    | cons p m =>
      rw [blockLines, text_append (memberLines_ne_nil _ _ _ _) (fun h => by cases blockLines_eq_nil.1 h), he, hm]
      obtain ⟨name', e'⟩ := p
      simp [renderEach, List.intercalate_cons_cons]

end

theorem mem_intercalate {x : Char} {sep : Line} : ∀ {ls : List Line}, x ∈ sep.intercalate ls →
    x ∈ sep ∨ ∃ l ∈ ls, x ∈ l
  | [], h => by simp at h
  | [l], h => Or.inr ⟨l, List.mem_singleton_self l, by simpa using h⟩
  | l :: l' :: ls, h => by
    rw [List.intercalate_cons_cons, List.mem_append, List.mem_append] at h
    rcases h with (h | h) | h
    · exact Or.inr ⟨l, List.mem_cons_self, h⟩
    · exact Or.inl h
    · rcases mem_intercalate h with h | ⟨k, hk, hx⟩
      · exact Or.inl h
      · exact Or.inr ⟨k, List.mem_cons_of_mem l hk, hx⟩

theorem not_mem_tab_append {n : Nat} {l : Line} (h : '\n' ∉ l) : '\n' ∉ tab n ++ l := by
  simp [tab, h]

theorem not_mem_head {n : Nat} {name : String} {after : Line} (h : '\n' ∉ name.toList) (ha : '\n' ∉ after) :
    '\n' ∉ head n name after := by
  apply not_mem_tab_append
  rcases propertyName_cases h with ⟨c, cs, -, -, -, hn, -, ht⟩ | ht
  · rw [ht, ← hn]
    simp [h, ha]
  · have hesc : ∀ c ∈ name.toList, '\n' ∉ escapeKey c := by
      intro c hc hmem
      unfold escapeKey at hmem
      split at hmem <;> grind
    rw [ht]
    simpa [ha] using hesc

mutual

/-- No line of a member has a line end in it, if its entity is on one line. -/
theorem not_mem_memberLines {n : Nat} {name : String} {stop : Line} (h : '\n' ∉ name.toList) (hs : '\n' ∉ stop) :
    ∀ {e : Entity}, e.OnOneLine → ∀ l ∈ memberLines n name stop e, '\n' ∉ l
  | .constant value, he => by
    simp only [memberLines, List.mem_singleton, forall_eq]
    exact not_mem_head h (by simpa using ⟨he, hs⟩)
  | .function params result, he => by
    have hparams : '\n' ∉ (", ".intercalate params).toList := by
      rw [String.toList_intercalate]
      intro hmem
      rcases mem_intercalate hmem with hsep | ⟨l, hl, hmem⟩
      · exact absurd hsep (by decide)
      · obtain ⟨p, hp, rfl⟩ := List.mem_map.1 hl
        exact he.1 p hp hmem
    simp only [memberLines, List.mem_cons, List.not_mem_nil, or_false, forall_eq_or_imp, forall_eq]
    exact ⟨not_mem_head h (by simpa using hparams), not_mem_tab_append (by simpa using he.2),
      not_mem_tab_append (by simpa using hs)⟩
  | .object props, he => by
    intro l hl
    simp only [memberLines] at hl
    split at hl
    · rw [List.mem_singleton.1 hl]
      exact not_mem_head h (by simpa using hs)
    · rcases List.mem_cons.1 hl with rfl | hl
      · exact not_mem_head h (by simp)
      · rcases List.mem_append.1 hl with hl | hl
        · exact not_mem_blockLines he l hl
        · rw [List.mem_singleton.1 hl]
          exact not_mem_tab_append (by simpa using hs)

/-- No line of a block has a line end in it, if its entities are on one line. -/
theorem not_mem_blockLines {n : Nat} : ∀ {m : List (String × Entity)}, MembersOnOneLine m →
    ∀ l ∈ blockLines n m, '\n' ∉ l
  | [], _, l, hl => by simp [blockLines] at hl
  | (name, e) :: m, hm, l, hl => by
    rw [blockLines] at hl
    rcases List.mem_append.1 hl with hl | hl
    · exact not_mem_memberLines hm.1 (by split <;> simp) hm.2.1 l hl
    · exact not_mem_blockLines hm.2.2 l hl

end

/-- A text without stray line feeds falls apart into its lines. -/
theorem text_inj {n : Nat} {m m' : List (String × Entity)} (hm : MembersOnOneLine m) (hm' : MembersOnOneLine m')
    (h : text (blockLines n m) = text (blockLines n m')) : blockLines n m = blockLines n m' := by
  match m, m' with
  | [], [] => rfl
  | [], p :: m' => exact absurd h.symm text_blockLines_ne_nil
  | p :: m, [] => exact absurd h text_blockLines_ne_nil
  | p :: m, p' :: m' =>
    have hne : ∀ (p : String × Entity) m, blockLines n (p :: m) ≠ [] := fun p m h => by cases blockLines_eq_nil.1 h
    have hs := congrArg (List.splitOn '\n') h
    rwa [text, text, List.splitOn_intercalate _ (not_mem_blockLines hm) (hne p m),
      List.splitOn_intercalate _ (not_mem_blockLines hm') (hne p' m')] at hs

mutual

/-- A canonical entity is rendered as the entity is. -/
theorem memberLines_canonical (n : Nat) (name : String) (stop : Line) : ∀ e : Entity,
    memberLines n name stop e.canonical = memberLines n name stop e
  | .constant value => rfl
  | .function params result => by simp [Entity.canonical, memberLines]
  | .object props => by
    have hm := blockLines_canonical (n + 1) props
    cases hp : props.isEmpty with
    | true => rw [Entity.canonical, if_pos hp, memberLines_empty hp]
    | false =>
      obtain ⟨p, props, rfl⟩ := List.exists_cons_of_ne_nil (List.isEmpty_eq_false_iff.1 hp)
      simp only [Entity.canonical, memberLines, List.isEmpty_cons, Bool.false_eq_true, if_false, hm]
      rfl

theorem blockLines_canonical (n : Nat) : ∀ m : List (String × Entity),
    blockLines n (canonicalMembers m) = blockLines n m
  | [] => rfl
  | (name, e) :: m => by
    have hempty : (canonicalMembers m).isEmpty = m.isEmpty := by cases m <;> rfl
    rw [canonicalMembers, blockLines, blockLines, hempty, memberLines_canonical n name _ e, blockLines_canonical n m]

end

end Layout

/-- **Rendered members can be read in one way only.** Lists of members without line feeds that have the same text have
the same keys in the same order, with the same kinds, nesting, values, results and parameter lists; only an empty object
and a constant `{}` are not told apart. -/
theorem renderMembers_eq_iff {n : Nat} {m m' : OrderedMap Entity} (hm : MembersOnOneLine m)
    (hm' : MembersOnOneLine m') :
    renderMembers n m = renderMembers n m' ↔ canonicalMembers m = canonicalMembers m' := by
  constructor
  · intro h
    have htext : Layout.text (Layout.blockLines n m) = Layout.text (Layout.blockLines n m') := by
      rw [Layout.text_blockLines, Layout.text_blockLines, h]
    exact Layout.blockLines_inj hm hm' (Layout.text_inj hm hm' htext)
  · intro h
    apply String.toList_injective
    rw [← Layout.text_blockLines, ← Layout.text_blockLines, ← Layout.blockLines_canonical, h,
      Layout.blockLines_canonical]

/-- A key with a brace after a colon, a result that closes a body, and a value that goes on like an object. -/
def disguised : OrderedMap Entity :=
  [("a': \x7b", .object []), ("f", .function ["x", "y) \x7b"] "g(); \x7d,"), ("o", .object [("b", .constant "\x7b,")])]

/-- The same with another empty object and other bounds of parameters. -/
def disguisedTwin : OrderedMap Entity :=
  [("a': \x7b", .constant "\x7b\x7d"), ("f", .function ["x, y) \x7b"] "g(); \x7d,"),
    ("o", .object [("b", .constant "\x7b,")])]

/-- The same with the members of the object beside it. -/
def disguisedFlat : OrderedMap Entity :=
  [("a': \x7b", .object []), ("f", .function ["x", "y) \x7b"] "g(); \x7d,"), ("o", .constant "\x7b"),
    ("b", .constant "\x7b,")]

theorem renderMembers_eq_iff_disguised :
    MembersOnOneLine disguised ∧ MembersOnOneLine disguisedTwin ∧ MembersOnOneLine disguisedFlat ∧
      renderMembers 2 disguised = renderMembers 2 disguisedTwin ∧
      renderMembers 2 disguised ≠ renderMembers 2 disguisedFlat := by
  have h : MembersOnOneLine disguised := by simp [disguised, MembersOnOneLine, Entity.OnOneLine]
  have h' : MembersOnOneLine disguisedTwin := by simp [disguisedTwin, MembersOnOneLine, Entity.OnOneLine]
  have hf : MembersOnOneLine disguisedFlat := by simp [disguisedFlat, MembersOnOneLine, Entity.OnOneLine]
  refine ⟨h, h', hf, (renderMembers_eq_iff (n := 2) h h').2 rfl, fun e => ?_⟩
  have := (renderMembers_eq_iff (n := 2) h hf).1 e
  simp [disguised, disguisedFlat, canonicalMembers] at this

end ModuleMock
