import Mathlib.Data.Finset.Card
import Mathlib.Data.Finset.Dedup
import ModuleMock.FileTree.Basic

/-!
# Where written paths lead

- A path that can be followed leads to its location as told from the names alone (`follow_eq_resolve`), so a file that
  can be read stands at the location of its path (`readText_file`), one of the `files` of the tree.
- In a tree where all items stand in directories (`Rooted`), a path that can be read ends with the name of the file
  (`getLast?_of_readText`): no double dots, no slash at the end.
-/

namespace ModuleMock

/-! ## Names between slashes -/

/-- The last of the texts between slashes ends as the whole text does, unless that ends with a slash. -/
theorem splitSlashes_getLast {x : Char} (hx : x ≠ '/') : ∀ cs : List Char, cs.getLast? = some x →
    ∃ front last, splitSlashes cs = front ++ [last] ∧ last.getLast? = some x
  | [], h => by simp at h
  | [c], h => by
    obtain rfl : c = x := by simpa using h
    exact ⟨[], [c], by simp [splitSlashes, hx], rfl⟩
  | c :: d :: cs, h => by
    rw [List.getLast?_cons_cons] at h
    obtain ⟨front, last, hs, hl⟩ := splitSlashes_getLast hx (d :: cs) h
    rw [splitSlashes, hs]
    split
    · exact ⟨[] :: front, last, rfl, hl⟩
    · cases front with
      | nil =>
        refine ⟨[], c :: last, rfl, ?_⟩
        cases last with
        | nil => simp at hl
        | cons a as => rw [List.getLast?_cons_cons]; exact hl
      | cons p front => exact ⟨(c :: p) :: front, last, rfl, hl⟩

namespace Path

/-- A path is absolute if its text begins with a slash. -/
theorem isAbsolute_ofString (s : String) : (ofString s).isAbsolute = true ↔ s.toList.head? = some '/' := by
  unfold ofString isAbsolute rootOf
  split
  · simp_all
  · simp_all
  · simp_all
  · rename_i hs
    cases h : s.toList with
    | nil => simp
    | cons c cs =>
      have hc : c ≠ '/' := fun e => hs cs (by rw [h, e])
      simp [hc]

end Path

namespace FileTree

/-- Empty names and single dots apart, the steps of a path are its parts. -/
theorem stepsOf_filter (s : String) : (stepsOf s).filter (· ≠ ".") = Path.partsOf s := by
  unfold stepsOf Path.partsOf
  split
  · simp [List.filter_append, List.filter_filter, Bool.and_comm]
  · simp [List.filter_filter, Bool.and_comm]

/-! ## Following -/

variable {t : FileTree}

/-- Names are followed as locations are resolved; single dots do not move. -/
theorem followFrom_eq : ∀ {names : List String} {l l' : Location}, t.followFrom l names = .ok l' →
    l' = (names.filter (· ≠ ".")).foldl Path.step l
  | [], l, l', h => by cases h; rfl
  | name :: names, l, l', h => by
    unfold followFrom at h
    split at h
    · cases h
    · cases h
    · have ih := followFrom_eq h
      by_cases hn : name = "."
      · simpa [hn] using ih
      · simpa [hn] using ih

/-- Wherever a path leads is where it resolves to. -/
theorem follow_eq_resolve {cwd l : Location} {s : String} (h : t.follow cwd s = .ok l) :
    l = Path.resolve cwd (.ofString s) := by
  unfold follow at h
  split at h
  · cases h
  · have hl := followFrom_eq h
    rw [stepsOf_filter] at hl
    unfold Path.resolve
    by_cases ha : s.toList.head? = some '/'
    · rw [if_pos ((Path.isAbsolute_ofString s).2 ha)]
      rwa [if_pos ha] at hl
    · rw [if_neg (fun e => ha ((Path.isAbsolute_ofString s).1 e))]
      rwa [if_neg ha] at hl

/-- The last step of a path starts in a directory. -/
theorem followFrom_concat {name : String} : ∀ {names : List String} {l l' : Location},
    t.followFrom l (names ++ [name]) = .ok l' →
    ∃ d, t.item? d = some .directory ∧ l' = if name = "." then d else Path.step d name
  | [], l, l', h => by
    simp only [List.nil_append, followFrom] at h
    split at h
    · cases h
    · cases h
    · rename_i hd
      exact ⟨l, hd, (Except.ok.inj h).symm⟩
  | n :: names, l, l', h => by
    simp only [List.cons_append, followFrom] at h
    split at h
    · cases h
    · cases h
    · exact followFrom_concat h

/-! ## Reading -/

/-- The locations where files stand. -/
def files (t : FileTree) : Finset Location :=
  t.fileLocations.toFinset.filter fun l => (t.item? l).any fun i => i ≠ .directory

/-- The files are the locations that hold one. -/
theorem mem_files {l : Location} : l ∈ t.files ↔ ∃ content, t.item? l = some (.file content) := by
  unfold files
  rw [Finset.mem_filter, List.mem_toFinset]
  constructor
  · rintro ⟨-, h⟩
    cases hi : t.item? l with
    | none => rw [hi] at h; simp at h
    | some i =>
      cases i with
      | file content => exact ⟨content, rfl⟩
      | directory => rw [hi] at h; simp at h
  · rintro ⟨content, h⟩
    refine ⟨?_, by simp [h]⟩
    unfold item? at h
    split at h
    · cases h
    · obtain ⟨before, after, he, -⟩ := List.lookup_eq_some_iff.1 h
      exact List.mem_filterMap.2 ⟨(l, .file content), by simp [he], rfl⟩

/-- There are at most as many files as entries for them. -/
theorem card_files_le (t : FileTree) : t.files.card ≤ t.fileLocations.length :=
  (Finset.card_filter_le _ _).trans (List.toFinset_card_le _)

/-- A file that can be read stands at the location of its path. -/
theorem readText_file {cwd : Location} {s text : String} (h : t.readText cwd s = .ok text) :
    ∃ content, t.item? (Path.resolve cwd (.ofString s)) = some (.file content) ∧
      Text.decodeLines content = .ok text ∧ t.follow cwd s = .ok (Path.resolve cwd (.ofString s)) := by
  unfold readText read at h
  cases hf : t.follow cwd s with
  | error fault => rw [hf] at h; cases h
  | ok l =>
    rw [hf] at h
    obtain rfl := follow_eq_resolve hf
    cases hi : t.item? (Path.resolve cwd (.ofString s)) with
    | none => simp [hi, bind, Except.bind] at h
    | some i =>
      cases i with
      | directory => simp [hi, bind, Except.bind] at h
      | file content =>
        refine ⟨content, rfl, ?_, rfl⟩
        simp only [hi, bind, Except.bind] at h
        cases hd : Text.decodeLines content with
        | error fault => rw [hd] at h; cases h
        | ok text' => rw [hd] at h; cases h; rfl

/-- A text is read if a file is there, its bytes are a text and the path leads to it. -/
theorem readText_eq_ok {cwd : Location} {s text : String} : t.readText cwd s = .ok text ↔
    ∃ content, t.item? (Path.resolve cwd (.ofString s)) = some (.file content) ∧
      Text.decodeLines content = .ok text ∧ t.follow cwd s = .ok (Path.resolve cwd (.ofString s)) := by
  refine ⟨readText_file, ?_⟩
  rintro ⟨content, hitem, htext, hfollow⟩
  unfold readText read
  rw [hfollow]
  simp only [bind, Except.bind, hitem, htext]

/-- Where the directories of one tree are directories of another, paths can be followed there as well. -/
theorem followFrom_mono {t' : FileTree} (h : ∀ l, t.item? l = some .directory → t'.item? l = some .directory)
    {names : List String} {l l' : Location} (hl : t.followFrom l names = .ok l') :
    t'.followFrom l names = .ok l' := by
  induction names generalizing l with
  | nil => exact hl
  | cons name names ih =>
    unfold followFrom at hl ⊢
    split at hl
    · cases hl
    · cases hl
    · rename_i hd
      rw [h l hd]
      exact ih hl

/-- A path that leads somewhere does so still if no directory has gone. -/
theorem follow_mono {t' : FileTree} (h : ∀ l, t.item? l = some .directory → t'.item? l = some .directory)
    {cwd l : Location} {s : String} (hl : t.follow cwd s = .ok l) : t'.follow cwd s = .ok l := by
  unfold follow at hl ⊢
  split at hl
  · cases hl
  · rename_i hs
    rw [if_neg hs]
    exact followFrom_mono h hl

/-- A path has the same text in both trees, or none in either. -/
def SameText (cwd : Location) (t t' : FileTree) (s : String) : Prop :=
  ∀ text, t'.readText cwd s = .ok text ↔ t.readText cwd s = .ok text

theorem SameText.refl (cwd : Location) (t : FileTree) (s : String) : SameText cwd t t s := fun _ => Iff.rfl

theorem SameText.error {t' : FileTree} {cwd : Location} {s : String} {fault : FileFault} (h : SameText cwd t t' s)
    (hr : t.readText cwd s = .error fault) : ∃ fault', t'.readText cwd s = .error fault' := by
  cases hr' : t'.readText cwd s with
  | error fault' => exact ⟨fault', rfl⟩
  | ok text =>
    rw [(h text).1 hr'] at hr
    cases hr

/-- What can be read at a path depends on the directories of the tree and on the item at its location. -/
theorem sameText_of_item? {t' : FileTree} {cwd : Location} {s : String}
    (h : ∀ l, t'.item? l = some .directory ↔ t.item? l = some .directory)
    (hs : t'.item? (Path.resolve cwd (.ofString s)) = t.item? (Path.resolve cwd (.ofString s))) :
    SameText cwd t t' s := by
  intro text
  rw [readText_eq_ok, readText_eq_ok, hs]
  constructor
  · rintro ⟨content, hitem, htext, hfollow⟩
    exact ⟨content, hitem, htext, follow_mono (fun l => (h l).1) hfollow⟩
  · rintro ⟨content, hitem, htext, hfollow⟩
    exact ⟨content, hitem, htext, follow_mono (fun l => (h l).2) hfollow⟩

theorem readText_of_toOption {cwd : Location} {s text : String} (h : (t.readText cwd s).toOption = some text) :
    t.readText cwd s = .ok text := by
  cases hr : t.readText cwd s with
  | error fault => rw [hr] at h; cases h
  | ok text' => rw [hr] at h; cases h; rfl

/-- What is read as a text is a file. -/
theorem resolve_mem_files {cwd : Location} {s text : String} (h : t.readText cwd s = .ok text) :
    Path.resolve cwd (.ofString s) ∈ t.files := by
  obtain ⟨content, hc, -, -⟩ := readText_file h
  exact mem_files.2 ⟨content, hc⟩

/-- Two paths of one location that can both be read have the same text. -/
theorem readText_unique {cwd : Location} {s s' text text' : String} (h : t.readText cwd s = .ok text)
    (h' : t.readText cwd s' = .ok text') (hl : Path.resolve cwd (.ofString s) = Path.resolve cwd (.ofString s')) :
    text = text' := by
  obtain ⟨content, hc, hd, -⟩ := readText_file h
  obtain ⟨content', hc', hd', -⟩ := readText_file h'
  rw [hl, hc'] at hc
  cases hc
  rw [hd'] at hd
  exact (Except.ok.inj hd).symm

/-! ## Trees -/

/-- Every item stands in a directory. -/
def Rooted (t : FileTree) : Prop := ∀ l, (t.item? l).isSome → t.item? l.dropLast = some .directory

/-- A tree is rooted if each entry has a directory above it. -/
theorem rooted_of_entries (h : ∀ e ∈ t.entries, t.item? e.1.dropLast = some .directory) : t.Rooted := by
  intro l hl
  obtain ⟨i, hi⟩ := Option.isSome_iff_exists.1 hl
  unfold item? at hi
  split at hi
  · rename_i hnil
    rw [hnil]
    rfl
  · obtain ⟨before, after, he, -⟩ := List.lookup_eq_some_iff.1 hi
    exact h (l, i) (by simp [he])

/-- A path that can be read ends as the name of its file does. -/
theorem getLast?_of_readText (ht : t.Rooted) {cwd : Location} {s text : String} (h : t.readText cwd s = .ok text) :
    s.toList.getLast? = (Path.resolve cwd (.ofString s)).getLast?.bind fun name => name.toList.getLast? := by
  obtain ⟨content, hc, -, hf⟩ := readText_file h
  generalize Path.resolve cwd (.ofString s) = l at hc hf ⊢
  unfold follow at hf
  split at hf
  · cases hf
  rename_i hs
  -- the last step neither stays in a directory nor goes up to one, so it goes down by a name
  have hdown : ∀ {names name}, stepsOf s = names ++ [name] → name ≠ "." ∧ l.getLast? = some name := by
    intro names name hn
    rw [hn] at hf
    obtain ⟨d, hd, rfl⟩ := followFrom_concat hf
    by_cases h1 : name = "."
    · rw [if_pos h1, hd] at hc; cases hc
    · rw [if_neg h1] at hc ⊢
      by_cases h2 : name = ".."
      · rw [Path.step, if_pos h2, ht d (by rw [hd]; rfl)] at hc; cases hc
      · rw [Path.step, if_neg h2, List.getLast?_concat]
        exact ⟨h1, rfl⟩
  cases hx : s.toList.getLast? with
  | none => exact absurd (String.toList_eq_nil_iff.1 (List.getLast?_eq_none_iff.1 hx)) hs
  | some x =>
    by_cases hslash : x = '/'
    · have hdot : stepsOf s = ((splitSlashes s.toList).map String.ofList).filter (· ≠ "") ++ ["."] := by
        simp [stepsOf, hx, hslash]
      exact absurd rfl (hdown hdot).1
    · obtain ⟨front, last, hsplit, hlast⟩ := splitSlashes_getLast hslash s.toList hx
      have hne : String.ofList last ≠ "" := by
        intro e
        cases last with
        | nil => simp at hlast
        | cons a as => simp at e
      have hsteps : stepsOf s = (front.map String.ofList).filter (· ≠ "") ++ [String.ofList last] := by
        simp [stepsOf, hx, hslash, hsplit, List.filter_append, hne]
      simp [(hdown hsteps).2, hlast]

end FileTree

end ModuleMock
