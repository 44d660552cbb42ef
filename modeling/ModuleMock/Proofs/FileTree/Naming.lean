import ModuleMock.Proofs.FileTree.Changing

/-!
# Written paths and locations

A path with proper parts can be written and read back (`Path.ofString_toString`). The written path of a location leads to
this location wherever the places above it are directories (`FileTree.follow_ofLocation`); there a file can be written,
unless it is a directory (`FileTree.write_ofLocation`).
-/

namespace ModuleMock

/-- A part of a path: not empty, no single dot, and without slashes. -/
def IsPart (x : String) : Prop := x ≠ "" ∧ x ≠ "." ∧ '/' ∉ x.toList

/-- A name in a location: a part of a path other than double dots. -/
def IsName (x : String) : Prop := IsPart x ∧ x ≠ ".."

instance (x : String) : Decidable (IsPart x) := inferInstanceAs (Decidable (_ ∧ _))

instance (x : String) : Decidable (IsName x) := inferInstanceAs (Decidable (_ ∧ _))

/-- Splitting at slashes is the splitting of the library. -/
theorem splitSlashes_eq_splitOn (cs : List Char) : splitSlashes cs = cs.splitOn '/' := by
  induction cs with
  | nil => rfl
  | cons c cs ih =>
    rw [List.splitOn_eq_splitOnP, List.splitOnP_cons_eq_if_modifyHead, ← List.splitOn_eq_splitOnP, ← ih, splitSlashes]
    by_cases hc : c = '/'
    · simp [hc]
    · cases hs : splitSlashes cs with
      | nil => exact absurd (ih.symm.trans hs) (List.splitOn_ne_nil _ _)
      | cons p ps => simp [hc]

/-- No piece between slashes has one. -/
theorem not_mem_of_mem_splitSlashes : ∀ {cs p : List Char}, p ∈ splitSlashes cs → '/' ∉ p
  | [], p, h => by
    obtain rfl : p = [] := by simpa [splitSlashes] using h
    simp
  | c :: cs, p, h => by
    rw [splitSlashes] at h
    split at h
    · rcases List.mem_cons.1 h with rfl | h
      · simp
      · exact not_mem_of_mem_splitSlashes h
    · rename_i hc
      split at h
      · obtain rfl := List.mem_singleton.1 h
        simpa using Ne.symm hc
      · rename_i q qs hs
        have ih : ∀ x ∈ splitSlashes cs, '/' ∉ x := fun x hx => not_mem_of_mem_splitSlashes hx
        rw [hs] at ih
        rcases List.mem_cons.1 h with rfl | h
        · have := ih q (by simp)
          simp [Ne.symm hc, this]
        · exact ih p (by simp [h])

namespace Path

/-- The parts of a path are not empty, no single dot and without slashes. -/
theorem isPart_of_mem_partsOf {s x : String} (h : x ∈ partsOf s) : IsPart x := by
  unfold partsOf at h
  obtain ⟨hx, hp⟩ := List.mem_filter.1 h
  obtain ⟨p, hm, rfl⟩ := List.mem_map.1 hx
  simp only [decide_eq_true_eq] at hp
  exact ⟨hp.1, hp.2, by rw [String.toList_ofList]; exact not_mem_of_mem_splitSlashes hm⟩

/-- A path as it is read from a text. -/
structure Proper (p : Path) : Prop where
  root : p.root = "" ∨ p.root = "/" ∨ p.root = "//"
  parts : ∀ x ∈ p.parts, IsPart x

/-- Every text stands for a proper path. -/
theorem proper_ofString (s : String) : (ofString s).Proper := by
  refine ⟨?_, fun x hx => isPart_of_mem_partsOf hx⟩
  unfold ofString rootOf
  dsimp only
  split <;> simp

/-- A location made of names is a proper path. -/
theorem proper_ofLocation {l : Location} (h : ∀ x ∈ l, IsName x) : (ofLocation l).Proper :=
  ⟨by simp [ofLocation], fun x hx => (h x hx).1⟩

section

variable {p : Path}

/-- The names of a path in a row, with slashes between them. -/
def body (p : Path) : List Char := ['/'].intercalate (p.parts.map String.toList)

/-- A path other than the bare one is written as its root and its body. -/
theorem toList_toString (h : p.root ≠ "" ∨ p.parts ≠ []) : p.toString.toList = p.root.toList ++ p.body := by
  unfold toString body
  rw [if_neg (by rintro ⟨h₁, h₂⟩; exact h.elim (· h₁) (· h₂)), String.toList_append, String.toList_intercalate]
  rfl

/-- Splitting the body of a proper path gives its parts. -/
theorem splitSlashes_body (hp : p.Proper) (hne : p.parts ≠ []) : splitSlashes p.body = p.parts.map String.toList := by
  rw [splitSlashes_eq_splitOn]
  refine List.splitOn_intercalate '/' ?_ (by simpa using hne)
  intro cs hcs
  obtain ⟨x, hx, rfl⟩ := List.mem_map.1 hcs
  exact (hp.parts x hx).2.2

theorem nil_not_mem_splitSlashes_body (hp : p.Proper) (hne : p.parts ≠ []) : [] ∉ splitSlashes p.body := by
  rw [splitSlashes_body hp hne]
  intro h
  obtain ⟨x, hx, hnil⟩ := List.mem_map.1 h
  exact (hp.parts x hx).1 (String.toList_eq_nil_iff.1 hnil)

/-- The body of a proper path does not begin with a slash. -/
theorem body_ne_cons_slash (hp : p.Proper) (cs : List Char) : p.body ≠ '/' :: cs := by
  intro h
  by_cases hne : p.parts = []
  · simp [body, hne] at h
  · exact nil_not_mem_splitSlashes_body hp hne (by simp [h, splitSlashes])

/-- The body of a proper path does not end with a slash. -/
theorem body_ne_concat_slash (hp : p.Proper) (cs : List Char) : p.body ≠ cs ++ ['/'] := by
  intro h
  by_cases hne : p.parts = []
  · simp [body, hne] at h
  · refine nil_not_mem_splitSlashes_body hp hne ?_
    rw [h, splitSlashes_eq_splitOn, List.splitOn_eq_splitOnP, List.splitOnP_append_cons _ _ (by simp)]
    simp

/-- The names between the slashes of a written path, empty ones left out. -/
theorem names_toString (hp : p.Proper) (h : p.root ≠ "" ∨ p.parts ≠ []) :
    ((splitSlashes p.toString.toList).map String.ofList).filter (· ≠ "") = p.parts := by
  have hbody : ((splitSlashes p.body).map String.ofList).filter (· ≠ "") = p.parts := by
    by_cases hne : p.parts = []
    · simp [body, hne, splitSlashes]
    · rw [splitSlashes_body hp hne, List.map_map]
      simp only [Function.comp_def, String.ofList_toList, List.map_id']
      exact List.filter_eq_self.2 fun x hx => by simpa using (hp.parts x hx).1
  rw [toList_toString h]
  rcases hp.root with hr | hr | hr
  · simpa [hr] using hbody
  · simpa [hr, splitSlashes] using hbody
  · simpa [hr, splitSlashes] using hbody

theorem not_bare (h : ¬ (p.root = "" ∧ p.parts = [])) : p.root ≠ "" ∨ p.parts ≠ [] := by
  by_cases hr : p.root = ""
  · exact .inr fun hp => h ⟨hr, hp⟩
  · exact .inl hr

/-- A proper path that is written has the same parts. -/
theorem partsOf_toString (hp : p.Proper) : partsOf p.toString = p.parts := by
  by_cases h : p.root = "" ∧ p.parts = []
  · rw [toString, if_pos h, h.2]
    decide
  · have hdots : partsOf p.toString =
        (((splitSlashes p.toString.toList).map String.ofList).filter (· ≠ "")).filter (· ≠ ".") := by
      simp [partsOf, List.filter_filter, Bool.and_comm]
    rw [hdots, names_toString hp (not_bare h)]
    exact List.filter_eq_self.2 fun x hx => decide_eq_true (hp.parts x hx).2.1

/-- A proper path that is written has the same root. -/
theorem rootOf_toString (hp : p.Proper) : rootOf p.toString = p.root := by
  by_cases h : p.root = "" ∧ p.parts = []
  · rw [toString, if_pos h, h.1]
    decide
  · have hslash := body_ne_cons_slash hp
    unfold rootOf
    rw [toList_toString (not_bare h)]
    generalize p.body = cs at hslash
    cases cs with
    | nil => rcases hp.root with hr | hr | hr <;> rw [hr] <;> rfl
    | cons c cs =>
      have hc : c ≠ '/' := fun e => hslash cs (by rw [e])
      rcases hp.root with hr | hr | hr <;> rw [hr] <;> simp [hc]

/-- A proper path that is written stands for itself. -/
theorem ofString_toString (hp : p.Proper) : ofString p.toString = p := by
  rw [ofString, rootOf_toString hp, partsOf_toString hp]

theorem ofString_of_isPart {x : String} (hx : IsPart x) : ofString x = ⟨"", [x]⟩ := by
  have hp : (⟨"", [x]⟩ : Path).Proper := ⟨.inl rfl, by simpa using hx⟩
  have ht : (⟨"", [x]⟩ : Path).toString = x := by simp [toString]
  rw [← ofString_toString hp, ht]

end

end Path

/-! ## Locations of paths -/

/-- Resolving a path leaves only names. -/
theorem isName_resolve {cwd : Location} (hcwd : ∀ x ∈ cwd, IsName x) (s : String) :
    ∀ x ∈ Path.resolve cwd (.ofString s), IsName x := by
  have hfold : ∀ (parts : List String) (l : Location), (∀ x ∈ parts, IsPart x) → (∀ x ∈ l, IsName x) →
      ∀ x ∈ parts.foldl Path.step l, IsName x := by
    intro parts
    induction parts with
    | nil => exact fun l _ hl => hl
    | cons p ps ih =>
      intro l hparts hl
      refine ih _ (fun x hx => hparts x (by simp [hx])) fun x hx => ?_
      unfold Path.step at hx
      split at hx
      · exact hl x (List.mem_of_mem_dropLast hx)
      · rename_i hp
        rcases List.mem_append.1 hx with hx | hx
        · exact hl x hx
        · obtain rfl := List.mem_singleton.1 hx
          exact ⟨hparts x (by simp), hp⟩
  refine hfold _ _ (Path.proper_ofString s).parts ?_
  split
  · simp
  · exact hcwd

/-- A location resolves to itself, from every working directory. -/
theorem resolve_ofLocation {l : Location} (hl : ∀ x ∈ l, IsName x) (cwd : Location) :
    Path.resolve cwd (Path.ofLocation l) = l := by
  have hfold : ∀ l' : Location, l.foldl Path.step l' = l' ++ l := by
    induction l with
    | nil => simp
    | cons x xs ih =>
      intro l'
      rw [List.foldl_cons, ih (fun y hy => hl y (by simp [hy])), Path.step, if_neg (hl x (by simp)).2]
      simp
  simpa [Path.resolve, Path.ofLocation, Path.isAbsolute] using hfold []

/-- So does a location that is written. -/
theorem resolve_toString_ofLocation {l : Location} (hl : ∀ x ∈ l, IsName x) (cwd : Location) :
    Path.resolve cwd (.ofString (Path.ofLocation l).toString) = l := by
  rw [Path.ofString_toString (Path.proper_ofLocation hl), resolve_ofLocation hl]

/-- Locations that are written alike are equal. -/
theorem toString_ofLocation_inj {a b : Location} (ha : ∀ x ∈ a, IsName x) (hb : ∀ x ∈ b, IsName x)
    (h : (Path.ofLocation a).toString = (Path.ofLocation b).toString) : a = b := by
  rw [← resolve_toString_ofLocation ha [], h, resolve_toString_ofLocation hb]

namespace FileTree

variable {t : FileTree} {cwd : Location}

/-- An absolute path is followed from the root on, by its parts. -/
theorem follow_toString {p : Path} (hp : p.Proper) (ha : p.root ≠ "") :
    t.follow cwd p.toString = t.followFrom [] p.parts := by
  have hlist := Path.toList_toString (p := p) (.inl ha)
  have hhead : p.toString.toList.head? = some '/' := by
    rcases hp.root with hr | hr | hr
    · exact absurd hr ha
    · simp [hlist, hr]
    · simp [hlist, hr]
  have hne : p.toString ≠ "" := by
    intro h
    rw [h] at hhead
    cases hhead
  rw [follow, if_neg hne, if_pos hhead, stepsOf, Path.names_toString hp (.inl ha)]
  split
  · -- only the root itself is written with a slash at its end
    rename_i hlast
    have hparts : p.parts = [] := by
      by_contra hne
      have hbody : p.body ≠ [] := fun h => Path.nil_not_mem_splitSlashes_body hp hne (by simp [h, splitSlashes])
      rw [hlist, List.getLast?_append_of_ne_nil _ hbody] at hlast
      obtain ⟨cs, hcs⟩ := List.getLast?_eq_some_iff.1 hlast
      exact Path.body_ne_concat_slash hp cs hcs
    rw [hparts]
    rfl
  · rfl

/-- All places above a location are directories. -/
def Stands (t : FileTree) (l : Location) : Prop := ∀ k < l.length, t.item? (l.take k) = some .directory

/-- A location stands if everything above it is a directory. -/
theorem stands_concat {l : Location} {x : String} :
    t.Stands (l ++ [x]) ↔ ∀ k ≤ l.length, t.item? (l.take k) = some .directory := by
  unfold Stands
  constructor
  · intro h k hk
    have := h k (by simp; omega)
    rwa [List.take_append_of_le_length hk] at this
  · intro h k hk
    have hk : k ≤ l.length := by simpa using Nat.lt_succ_iff.1 (by simpa using hk)
    rw [List.take_append_of_le_length hk]
    exact h k hk

/-- In a tree where all items stand in directories, so do the places above an item. -/
theorem Rooted.stands (ht : t.Rooted) {l : Location} (hl : (t.item? l).isSome) : t.Stands l := by
  induction hn : l.length generalizing l with
  | zero => exact fun k hk => by omega
  | succ n ih =>
    have hd := ht l hl
    have hup : t.Stands l.dropLast := ih (by rw [hd]; rfl) (by rw [List.length_dropLast, hn]; rfl)
    intro k hk
    by_cases hlast : k = n
    · rw [hlast, ← Nat.add_sub_cancel n 1, ← hn, ← List.dropLast_eq_take]
      exact hd
    · have := hup k (by rw [List.length_dropLast]; omega)
      rwa [List.dropLast_eq_take, List.take_take, Nat.min_eq_left (by omega)] at this

/-- Following names leads through directories to where they point. -/
theorem followFrom_names {names : List String} (hn : ∀ x ∈ names, IsName x) {l l' : Location} :
    t.followFrom l names = .ok l' ↔
      l' = l ++ names ∧ ∀ k < names.length, t.item? (l ++ names.take k) = some .directory := by
  induction names generalizing l with
  | nil => simp [followFrom, eq_comm]
  | cons x xs ih =>
    have hx := hn x (by simp)
    have ih := ih (l := l ++ [x]) fun y hy => hn y (by simp [hy])
    have hstep : (if x = "." then l else Path.step l x) = l ++ [x] := by
      rw [if_neg hx.1.2.1, Path.step, if_neg hx.2]
    rw [followFrom]
    constructor
    · intro h
      split at h
      · cases h
      · cases h
      · rename_i hd
        rw [hstep] at h
        obtain ⟨rfl, hs⟩ := ih.1 h
        refine ⟨by simp, fun k hk => ?_⟩
        cases k with
        | zero => simpa using hd
        | succ k => simpa using hs k (by simpa using hk)
    · rintro ⟨rfl, hs⟩
      have hd : t.item? l = some .directory := by simpa using hs 0 (by simp)
      rw [hd]
      dsimp only
      rw [hstep]
      refine ih.2 ⟨by simp, fun k hk => ?_⟩
      simpa using hs (k + 1) (by simpa using hk)

/-- A location that is written leads to itself exactly if it stands. -/
theorem follow_ofLocation {l : Location} (hl : ∀ x ∈ l, IsName x) {l' : Location} :
    t.follow cwd (Path.ofLocation l).toString = .ok l' ↔ l' = l ∧ t.Stands l := by
  rw [follow_toString (Path.proper_ofLocation hl) (by simp [Path.ofLocation]), Path.ofLocation, followFrom_names hl]
  simp [Stands]

/-- What is found under a location that stands is what is there. -/
theorem find?_ofLocation {l : Location} (hl : ∀ x ∈ l, IsName x) (hs : t.Stands l) :
    t.find? cwd (Path.ofLocation l).toString = t.item? l := by
  rw [find?, follow_ofLocation hl |>.2 ⟨rfl, hs⟩]

theorem existsAt_ofLocation {l : Location} (hl : ∀ x ∈ l, IsName x) (hs : t.Stands l) :
    t.existsAt cwd (Path.ofLocation l).toString = (t.item? l).isSome := by
  rw [existsAt, find?_ofLocation hl hs]

/-! ## Files in directories that exist -/

variable {v v' : Location}

theorem Stands.item?_dropLast (hs : t.Stands v) (hne : v ≠ []) : t.item? v.dropLast = some .directory := by
  rw [List.dropLast_eq_take]
  exact hs _ (Nat.sub_one_lt (by simpa using hne))

theorem Stands.dropLast (hs : t.Stands v) : t.Stands v.dropLast := by
  intro k hk
  rw [List.length_dropLast] at hk
  rw [List.dropLast_eq_take, List.take_take, Nat.min_eq_left (Nat.le_of_lt hk)]
  exact hs k (by omega)

/-- Putting an item where it is not above a location keeps the directories above that. -/
theorem Stands.put (hs : t.Stands v) (hlen : v.length ≤ v'.length) (i : Item) : (t.put v' i).Stands v := by
  intro k hk
  have hne : v.take k ≠ v' := by
    rintro rfl
    rw [List.length_take] at hlen
    omega
  rw [item?_put_of_ne t i hne]
  exact hs k hk

/-- The parent of a location that stands is found to be a directory. -/
theorem isDirectoryAt_of_stands (hv : ∀ x ∈ v, IsName x) (hs : t.Stands v) (hne : v ≠ []) :
    t.isDirectoryAt cwd (Path.ofLocation v.dropLast).toString = true := by
  rw [isDirectoryAt, find?_ofLocation (fun x hx => hv x (List.mem_of_mem_dropLast hx)) hs.dropLast]
  exact decide_eq_true (hs.item?_dropLast hne)

/-- A write to a location that stands fails only on a directory. -/
theorem write_ofLocation (hv : ∀ x ∈ v, IsName x) (hs : t.Stands v) (hne : v ≠ []) (content : Bytes) :
    t.write cwd (Path.ofLocation v).toString content =
      if t.isDirectory v then .error .isDirectory else .ok (t.put v (.file content)) := by
  unfold write
  rw [(follow_ofLocation hv).2 ⟨rfl, hs⟩]
  simp only [bind, Except.bind]
  cases hi : t.item? v with
  | none => simp [isDirectory, hi, hs.item?_dropLast hne]
  | some i =>
    cases i with
    | file old => simp [isDirectory, hi]
    | directory => simp [isDirectory, hi]

end FileTree

end ModuleMock
