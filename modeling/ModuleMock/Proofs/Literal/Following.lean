import Mathlib.Logic.Relation
import ModuleMock.Proofs.Literal.Mentions
import ModuleMock.Proofs.Literal.ReadBack

/-!
# Following names

The form of a name is that of its initial value. A name that is being followed is not followed again, and so writing
ends for every table: `serializeIn` is the recursion without a budget, and a budget for all names gives the same
(`serializeWithin_eq`). The names being followed matter only as far as they can be reached (`serializeIn_congr`).

Where the names that can be reached do not refer to each other in a circle and none of them is being followed, this
guard does nothing (`serialize_unguarded`): the form is that of the plain recursion (`Plain`), and of the expression in
which every name is replaced by its initial value (`Inlines`). Both are inductive relations, so that a circle has
neither.
-/

namespace ModuleMock.Literal

open Syntax Relation

/-! ## Names that can be reached -/

section Reaching

variable {table : DeclarationTable} {n v : Node} {a b : String}

/-- The initial value of the first name mentions the second. -/
def Refers (table : DeclarationTable) (a b : String) : Prop := ∃ v, initialOf? table a = some v ∧ b ∈ mentions v

/-- The names that an expression mentions, those that their initial values mention, and so on. -/
def Reaches (table : DeclarationTable) (n : Node) (b : String) : Prop :=
  ∃ a ∈ mentions n, ReflTransGen (Refers table) a b

theorem Reaches.of_mem (h : a ∈ mentions n) : Reaches table n a := ⟨a, h, .refl⟩

theorem transGen_of_reaches (hv : initialOf? table a = some v) (h : Reaches table v b) :
    TransGen (Refers table) a b := by
  obtain ⟨c, hc, hb⟩ := h
  exact TransGen.head' ⟨v, hv, hc⟩ hb

/-- What an initial value reaches is reached from where its name is mentioned. -/
theorem Reaches.of_initial (ha : a ∈ mentions n) (hv : initialOf? table a = some v) (h : Reaches table v b) :
    Reaches table n b := ⟨a, ha, (transGen_of_reaches hv h).to_reflTransGen⟩

/-- A list of names that holds what an expression mentions, and with each name what its initial value mentions, holds
all names that can be reached. -/
theorem Reaches.mem_of_closed {names : List String} (hn : ∀ a ∈ mentions n, a ∈ names)
    (hnames : ∀ a ∈ names, ∀ b ∈ ((initialOf? table a).map mentions).getD [], b ∈ names) (h : Reaches table n b) :
    b ∈ names := by
  obtain ⟨a, ha, hb⟩ := h
  induction hb with
  | refl => exact hn a ha
  | tail _ hr ih =>
    obtain ⟨v, hv, hm⟩ := hr
    exact hnames _ ih _ (by rw [hv]; exact hm)

end Reaching

/-! ## Following names -/

/-- The form of an expression where the listed names are not followed: each name that is followed joins them. -/
def serializeIn (table : DeclarationTable) (resolving : List String) (n : Node) : Option String :=
  serializeWith (fun name =>
    if _hname : name ∈ resolving then none
    else
      match _hv : initialOf? table name with
      | some v => serializeIn table (name :: resolving) v
      | none => none) n
termination_by pending table resolving
decreasing_by
  obtain ⟨_, hl⟩ := lookup_of_initialOf? _hv
  exact pending_cons_lt hl _hname

/-- The form of a name. -/
def nameForm (table : DeclarationTable) (resolving : List String) (name : String) : Option String :=
  if name ∈ resolving then none else (initialOf? table name).bind (serializeIn table (name :: resolving))

section Following

variable {table : DeclarationTable} {resolving resolving' : List String} {n : Node}

/-- An expression is written by the forms of the names in it. -/
theorem serializeIn_eq (table : DeclarationTable) (resolving : List String) (n : Node) :
    serializeIn table resolving n = serializeWith (nameForm table resolving) n := by
  rw [serializeIn]
  congr 1
  funext name
  rw [nameForm]
  split
  · rfl
  · cases initialOf? table name <;> rfl

/-- A budget for all names that are not being followed yet is enough. -/
theorem serializeWithin_eq (table : DeclarationTable) : ∀ (budget : Nat) (resolving : List String) (n : Node),
    pending table resolving ≤ budget → serializeWithin table budget resolving n = serializeIn table resolving n
  | 0, resolving, n, hbudget => by
    rw [serializeWithin, serializeIn_eq]
    congr 1
    funext name
    rw [nameForm]
    split
    · rfl
    · rename_i hname
      cases hv : initialOf? table name with
      | none => rfl
      | some v =>
        obtain ⟨_, hl⟩ := lookup_of_initialOf? hv
        exact absurd (pending_cons_lt hl hname) (by omega)
  | budget + 1, resolving, n, hbudget => by
    rw [serializeWithin, serializeIn_eq]
    congr 1
    funext name
    rw [nameForm]
    split
    · rfl
    · rename_i hname
      rw [initialOf?]
      rcases hl : table.lookup name with _ | (⟨node, _ | v⟩ | _ | _)
      · rfl
      · rfl
      · have hlt := pending_cons_lt hl hname
        exact serializeWithin_eq table budget (name :: resolving) v (by omega)
      · rfl
      · rfl

/-- The budget of `serialize` is enough: it gives what the recursion without one gives. -/
theorem serialize_eq (table : DeclarationTable) (n : Node) : serialize table n = serializeIn table [] n :=
  serializeWithin_eq table table.length [] n (List.length_filter_le _ _)

/-- The names being followed matter only as far as they can be reached. -/
theorem serializeIn_congr {resolving resolving' : List String} {n : Node}
    (h : ∀ a, Reaches table n a → (a ∈ resolving ↔ a ∈ resolving')) :
    serializeIn table resolving n = serializeIn table resolving' n := by
  rw [serializeIn_eq, serializeIn_eq]
  refine serializeWith_congr n fun name hname => ?_
  rw [nameForm, nameForm]
  have hiff := h name (.of_mem hname)
  by_cases hr : name ∈ resolving
  · rw [if_pos hr, if_pos (hiff.1 hr)]
  · rw [if_neg hr, if_neg (fun hr' => hr (hiff.2 hr'))]
    cases hv : initialOf? table name with
    | none => rfl
    | some v =>
      obtain ⟨_, hl⟩ := lookup_of_initialOf? hv
      refine serializeIn_congr fun a ha => ?_
      rw [List.mem_cons, List.mem_cons, h a (.of_initial hname hv ha)]
termination_by pending table resolving
decreasing_by exact pending_cons_lt hl hr

end Following

/-! ## Without a guard -/

/-- The plain recursion: names are written as their initial values are. A derivation is a run that ends, so that there
is none where names refer to each other in a circle. -/
inductive Plain (table : DeclarationTable) : Node → Option String → Prop
  | intro (n : Node) (inner : Node → Option String)
      (followed : ∀ name ∈ mentions n, ∀ v, initialOf? table name = some v → Plain table v (inner v)) :
      Plain table n (serializeWith (fun name => (initialOf? table name).bind inner) n)

/-- The second expression is the first one with all names replaced by their initial values, in which names are replaced
likewise. -/
inductive Inlines (table : DeclarationTable) : Node → Node → Prop
  | intro (n : Node) (inner : Node → Node)
      (followed : ∀ name ∈ mentions n, ∀ v, initialOf? table name = some v → Inlines table v (inner v)) :
      Inlines table n (inlineWith (fun name => (initialOf? table name).map inner) n)

/-- The names that can be reached do not refer to each other in a circle, and none of them is being followed. -/
structure Untangled (table : DeclarationTable) (resolving : List String) (n : Node) : Prop where
  acyclic : ∀ a, Reaches table n a → ¬TransGen (Refers table) a a
  free : ∀ a, Reaches table n a → a ∉ resolving

section Unguarded

variable {table : DeclarationTable} {resolving : List String} {n n' v : Node} {name : String} {form : Option String}

/-- The initial value of a name can be written while the name is being followed. -/
theorem Untangled.follow (h : Untangled table resolving n) (hname : name ∈ mentions n)
    (hv : initialOf? table name = some v) : Untangled table (name :: resolving) v where
  acyclic a ha := h.acyclic a (.of_initial hname hv ha)
  free a ha := by
    rw [List.mem_cons, not_or]
    refine ⟨?_, h.free a (.of_initial hname hv ha)⟩
    rintro rfl
    exact h.acyclic a (.of_mem hname) (transGen_of_reaches hv ha)

/-- What the plain recursion ends with is what the guarded one gives. -/
theorem Plain.eq_serializeIn (hp : Plain table n form) (h : Untangled table resolving n) :
    form = serializeIn table resolving n := by
  induction hp generalizing resolving with
  | intro n inner _ ih =>
    rw [serializeIn_eq]
    refine serializeWith_congr n fun name hname => ?_
    rw [nameForm, if_neg (h.free name (.of_mem hname))]
    cases hv : initialOf? table name with
    | none => rfl
    | some v => exact ih name hname v hv (h.follow hname hv)

/-- Inlining first and writing then is the plain recursion. -/
theorem Inlines.plain (h : Inlines table n n') : Plain table n (serializeWith (fun _ => none) n') := by
  induction h with
  | intro n inner _ ih =>
    have hfilled : filled (fun name => (initialOf? table name).map inner) (fun _ => none) = fun name =>
        (initialOf? table name).bind fun v => serializeWith (fun _ => none) (inner v) := by
      funext name
      rw [filled]
      cases initialOf? table name <;> rfl
    rw [serializeWith_inlineWith, hfilled]
    exact .intro n _ ih

/-- No name is left that could be replaced. -/
theorem Inlines.initialOf?_eq_none (h : Inlines table n n') : ∀ a ∈ mentions n', initialOf? table a = none := by
  induction h with
  | intro n inner _ ih =>
    intro a ha
    rw [mentions_inlineWith, List.mem_flatMap] at ha
    obtain ⟨name, hname, ha⟩ := ha
    rw [remaining] at ha
    cases hv : initialOf? table name with
    | none =>
      rw [hv] at ha
      rwa [List.mem_singleton.1 ha]
    | some v =>
      rw [hv] at ha
      exact ih name hname v hv a ha

/-- Names that are not in a circle can be inlined: the recursion follows names that are not being followed yet. -/
theorem Untangled.exists_inlines {resolving : List String} {n : Node} (h : Untangled table resolving n) :
    ∃ n', Inlines table n n' := by
  have hinner : ∀ name ∈ mentions n, ∀ v, initialOf? table name = some v → ∃ v', Inlines table v v' := by
    intro name hname v hv
    have hfree := h.free name (.of_mem hname)
    obtain ⟨_, hl⟩ := lookup_of_initialOf? hv
    exact (h.follow hname hv).exists_inlines
  classical
  refine ⟨_, .intro n (fun v => if hv : ∃ v', Inlines table v v' then hv.choose else v) ?_⟩
  intro name hname v hv
  have hex := hinner name hname v hv
  rw [dif_pos hex]
  exact hex.choose_spec
termination_by pending table resolving
decreasing_by exact pending_cons_lt hl hfree

end Unguarded

/-- **The guard is sound and invisible.** Writing an expression ends whatever its names refer to: with a budget for the
names that are not being followed, it is the recursion that knows no budget. Where the names that can be reached do not
refer to each other in a circle and none of them is being followed, the plain recursion ends too, with the same form,
and this is the form of the expression in which all names that have an initial value are inlined. -/
theorem serialize_unguarded (table : DeclarationTable) (resolving : List String) (n : Node) :
    (∀ budget, pending table resolving ≤ budget →
      serializeWithin table budget resolving n = serializeIn table resolving n) ∧
    (Untangled table resolving n →
      (∀ form, Plain table n form ↔ form = serializeIn table resolving n) ∧
      ∃ inlined, Inlines table n inlined ∧ (∀ a ∈ mentions inlined, initialOf? table a = none) ∧
        serialize [] inlined = serializeIn table resolving n) := by
  refine ⟨fun budget => serializeWithin_eq table budget resolving n, fun h => ?_⟩
  obtain ⟨inlined, hinlined⟩ := h.exists_inlines
  have hform : serialize [] inlined = serializeIn table resolving n := hinlined.plain.eq_serializeIn h
  refine ⟨fun form => ⟨fun hp => hp.eq_serializeIn h, ?_⟩, inlined, hinlined, hinlined.initialOf?_eq_none, hform⟩
  rintro rfl
  rw [← hform]
  exact hinlined.plain

/-- Names in an order in which initial values mention earlier names only are not in a circle. -/
theorem untangled_of_order {table : DeclarationTable} {resolving : List String} {n : Node} (order : List String)
    (hn : ∀ a ∈ mentions n, a ∈ order)
    (horder : ∀ a ∈ order, ∀ b ∈ ((initialOf? table a).map mentions).getD [],
      b ∈ order ∧ order.idxOf b < order.idxOf a)
    (hfree : ∀ a ∈ order, a ∉ resolving) : Untangled table resolving n := by
  have hmem : ∀ a, Reaches table n a → a ∈ order := fun a ha =>
    ha.mem_of_closed hn fun a ha b hb => (horder a ha b hb).1
  have hstep : ∀ a b, a ∈ order → Refers table a b → b ∈ order ∧ order.idxOf b < order.idxOf a := by
    rintro a b ha ⟨v, hv, hb⟩
    exact horder a ha b (by rw [hv]; exact hb)
  have hlt : ∀ a b, a ∈ order → TransGen (Refers table) a b → b ∈ order ∧ order.idxOf b < order.idxOf a := by
    intro a b ha h
    induction h with
    | single hr => exact hstep a _ ha hr
    | tail _ hr ih =>
      obtain ⟨hb, hlt⟩ := ih
      obtain ⟨hc, hlt'⟩ := hstep _ _ hb hr
      exact ⟨hc, by omega⟩
  exact ⟨fun a ha hc => absurd (hlt a a (hmem a ha) hc).2 (by omega), fun a ha => hfree a (hmem a ha)⟩

/-- A value that several names share, beside two names that refer to each other. -/
def sharedText : String :=
  "let p = [q], q = \x7b p \x7d, d = `it`, c = (d as any), x = [c, \x7b c, k: [d, e] \x7d, c]"

theorem serialize_unguarded_shared : ∃ n, initialOf? (.ofTree (Script.parse .plain sharedText)) "x" = some n ∧
    Untangled (.ofTree (Script.parse .plain sharedText)) ["p"] n ∧
    Plain (.ofTree (Script.parse .plain sharedText)) n
      (some "['it', \x7bc: 'it', k: ['it', undefined]\x7d, 'it']") := by
  have hparsed : (initialOf? (.ofTree (Script.parse .plain sharedText)) "x").map (fun n =>
        (mentions n, serializeWithin (.ofTree (Script.parse .plain sharedText)) 5 ["p"] n)) =
        some (["c", "c", "d", "e", "c"], some "['it', \x7bc: 'it', k: ['it', undefined]\x7d, 'it']") ∧
      (∀ a ∈ ["e", "d", "c"], ∀ b ∈ ((initialOf? (.ofTree (Script.parse .plain sharedText)) a).map mentions).getD [],
        b ∈ ["e", "d", "c"] ∧ ["e", "d", "c"].idxOf b < ["e", "d", "c"].idxOf a) ∧
      pending (.ofTree (Script.parse .plain sharedText)) ["p"] ≤ 5 := by
    decide +kernel
  obtain ⟨hx, horder, hbudget⟩ := hparsed
  obtain ⟨n, hn, h⟩ := Option.map_eq_some_iff.1 hx
  obtain ⟨hmentions, hform⟩ := Prod.mk.inj h
  have huntangled : Untangled (.ofTree (Script.parse .plain sharedText)) ["p"] n :=
    untangled_of_order ["e", "d", "c"] (by rw [hmentions]; decide) horder (by decide)
  obtain ⟨hends, hguard⟩ := serialize_unguarded (.ofTree (Script.parse .plain sharedText)) ["p"] n
  exact ⟨n, hn, huntangled, ((hguard huntangled).1 _).2 (hform.symm.trans (hends 5 hbudget))⟩

end ModuleMock.Literal
