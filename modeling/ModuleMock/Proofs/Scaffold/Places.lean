import ModuleMock.Scaffold
import ModuleMock.Proofs.FileTree.Naming

/-!
# Where generated files stand

The files that are generated for a module stand beside it (`beside_of_proper`), under three names that differ
(`nodup_generatedNames`). None of them is the module itself, one possible exception apart
(`Places.not_mem_beside`): each of the other two names is longer than the name of the module without its suffix.
-/

namespace ModuleMock

/-! ## Names of generated files -/

theorem slash_not_mem_stem {p : Path} (hp : p.Proper) : '/' ∉ (preloadId p).toList := by
  have hname : '/' ∉ p.name.toList := by
    unfold Path.name
    cases h : p.parts.getLast? with
    | none => simp
    | some x => exact (hp.parts x (List.mem_of_getLast? h)).2.2
  unfold preloadId Path.stem Path.splitName
  dsimp only
  split
  · rw [String.toList_ofList]
    exact fun h => hname (List.mem_of_mem_take h)
  · exact hname

/-- A text that ends with the suffix of generated files is a name. -/
theorem isName_append {a b : String} (ha : '/' ∉ a.toList) (hb : '/' ∉ b.toList) (hlen : 2 < b.length) :
    IsName (a ++ b) := by
  have hne : ∀ x : String, x.length ≤ 2 → a ++ b ≠ x := by
    rintro x hx rfl
    rw [String.length_append] at hx
    omega
  refine ⟨⟨hne "" (by decide), hne "." (by decide), ?_⟩, hne ".." (by decide)⟩
  rw [String.toList_append, List.mem_append]
  exact fun h => h.elim ha hb

/-- The names of the files that are generated for a module. -/
def generatedNames (id : String) : List String := ["_mock.auto" ++ ".ts", "_" ++ id ++ ".d.ts", id ++ ".mock.ts"]

/-- The names of the generated files are names of files. -/
theorem isName_of_mem_generatedNames {p : Path} (hp : p.Proper) {x : String} (hx : x ∈ generatedNames (preloadId p)) :
    IsName x := by
  have hid := slash_not_mem_stem hp
  simp only [generatedNames, List.mem_cons, List.not_mem_nil, or_false] at hx
  rcases hx with rfl | rfl | rfl
  · exact isName_append (by decide) (by decide) (by decide)
  · exact isName_append (by simpa using hid) (by decide) (by decide)
  · exact isName_append hid (by decide) (by decide)

/-- The names differ in the letter before their suffix. -/
theorem nodup_generatedNames (id : String) : (generatedNames id).Nodup := by
  have hends : ((generatedNames id).map fun x => x.toList.reverse.take 4).Nodup := by
    simp [generatedNames]
  exact hends.of_map _

/-- The name of a script without its suffix. -/
theorem splitName_script {a : String} (ha : a ≠ "") : (Path.splitName (a ++ ".ts")).1 = a := by
  have hne : a.toList ≠ [] := fun h => ha (String.toList_eq_nil_iff.1 h)
  simp [Path.splitName, hne]

/-- The other generated files are longer than the name of their module allows. -/
theorem ne_script {p : Path} {a : String} (h : (preloadId p).length < a.length) : p.name ≠ a ++ ".ts" := by
  intro hname
  have hne : a ≠ "" := by
    rintro rfl
    simp at h
  rw [preloadId, Path.stem, hname, splitName_script hne] at h
  omega

/-- Only the mock that is written anew each time can have the name of its own module. -/
theorem eq_autoMock_of_mem_generatedNames {p : Path} (h : p.name ∈ generatedNames (preloadId p)) :
    p.name = "_mock.auto" ++ ".ts" := by
  simp only [generatedNames, List.mem_cons, List.not_mem_nil, or_false] at h
  rcases h with h | h | h
  · exact h
  · rw [show ".d.ts" = ".d" ++ ".ts" from rfl, ← String.append_assoc] at h
    refine absurd h (ne_script ?_)
    have hlen : 0 < ".d".length := by decide
    simp only [String.length_append]
    omega
  · rw [show ".mock.ts" = ".mock" ++ ".ts" from rfl, ← String.append_assoc] at h
    refine absurd h (ne_script ?_)
    have hlen : 0 < ".mock".length := by decide
    simp only [String.length_append]
    omega

/-- The generated files stand beside the module. -/
theorem beside_of_proper {p : Path} (hp : p.Proper) :
    GeneratedFiles.beside p =
      ⟨⟨p.root, p.parts.dropLast ++ ["_mock.auto" ++ ".ts"]⟩,
        ⟨p.root, p.parts.dropLast ++ ["_" ++ preloadId p ++ ".d.ts"]⟩,
        ⟨p.root, p.parts.dropLast ++ [preloadId p ++ ".mock.ts"]⟩⟩ := by
  have hjoin : ∀ x ∈ generatedNames (preloadId p), p.parent.join (.ofString x) =
      ⟨p.root, p.parts.dropLast ++ [x]⟩ := by
    intro x hx
    rw [Path.ofString_of_isPart (isName_of_mem_generatedNames hp hx).1]
    rfl
  unfold GeneratedFiles.beside
  dsimp only
  rw [autoMockId, hjoin _ (by simp [generatedNames]), hjoin _ (by simp [generatedNames]),
    hjoin _ (by simp [generatedNames])]

/-- The directory of a module that can be read exists. -/
theorem stands_of_readText {t : FileTree} {cwd l : Location} (hl : ∀ x ∈ l, IsName x) {text : String}
    (h : t.readText cwd (Path.ofLocation l).toString = .ok text) (name : String) : t.Stands (l.dropLast ++ [name]) := by
  obtain ⟨content, hfile, -, hf⟩ := FileTree.readText_file h
  rw [resolve_toString_ofLocation hl] at hfile hf
  obtain ⟨-, hs⟩ := (FileTree.follow_ofLocation hl).1 hf
  rcases List.eq_nil_or_concat l with rfl | ⟨directory, x, rfl⟩
  · simp [FileTree.item?] at hfile
  · rw [List.concat_eq_append, FileTree.stands_concat] at hs
    rw [List.concat_eq_append, List.dropLast_concat, FileTree.stands_concat]
    exact hs

/-- The places beside an entry module are made of names. -/
theorem isName_beside {l : Location} (hl : ∀ x ∈ l, IsName x) {x : String}
    (hx : x ∈ generatedNames (preloadId (.ofLocation l))) : ∀ y ∈ l.dropLast ++ [x], IsName y := by
  intro y hy
  rcases List.mem_append.1 hy with hy | hy
  · exact hl y (List.mem_of_mem_dropLast hy)
  · obtain rfl := List.mem_singleton.1 hy
    exact isName_of_mem_generatedNames (Path.proper_ofLocation hl) hx

/-! ## Locations of generated files -/

/-- The locations of the files that are generated for a module. -/
structure Places where
  autoMock : Location
  declaration : Location
  userMock : Location

namespace Places

def toList (p : Places) : List Location := [p.autoMock, p.declaration, p.userMock]

theorem autoMock_mem (p : Places) : p.autoMock ∈ p.toList := .head _

theorem declaration_mem (p : Places) : p.declaration ∈ p.toList := .tail _ (.head _)

theorem userMock_mem (p : Places) : p.userMock ∈ p.toList := .tail _ (.tail _ (.head _))

/-- They are beside the module. -/
def beside (l : Location) : Places where
  autoMock := l.dropLast ++ ["_mock.auto" ++ ".ts"]
  declaration := l.dropLast ++ ["_" ++ preloadId (.ofLocation l) ++ ".d.ts"]
  userMock := l.dropLast ++ [preloadId (.ofLocation l) ++ ".mock.ts"]

/-- The paths of the generated files are those of their places. -/
theorem files_beside {l : Location} (hl : ∀ x ∈ l, IsName x) :
    GeneratedFiles.beside (.ofLocation l) = ⟨.ofLocation (beside l).autoMock, .ofLocation (beside l).declaration,
      .ofLocation (beside l).userMock⟩ := beside_of_proper (Path.proper_ofLocation hl)

theorem toList_beside (l : Location) :
    (beside l).toList = (generatedNames (preloadId (.ofLocation l))).map fun x => l.dropLast ++ [x] := rfl

/-- A module is none of its own generated files, unless it has the name of the mock that is written anew each time. -/
theorem not_mem_beside {l : Location} (h : (Path.ofLocation l).name ≠ "_mock.auto" ++ ".ts") :
    l ∉ (beside l).toList := by
  rw [toList_beside]
  intro hl
  obtain ⟨name, hname, he⟩ := List.mem_map.1 hl
  have hlast : (Path.ofLocation l).name = name := by
    rw [Path.name, Path.ofLocation, ← he]
    simp
  rw [← hlast] at hname
  exact h (eq_autoMock_of_mem_generatedNames hname)

/-- Places beside an entry module are made of names. -/
theorem names_beside {l v : Location} (hl : ∀ x ∈ l, IsName x) (hv : v ∈ (beside l).toList) : ∀ x ∈ v, IsName x := by
  rw [toList_beside] at hv
  obtain ⟨name, hname, rfl⟩ := List.mem_map.1 hv
  exact isName_beside hl hname

/-- The three places are distinct. -/
theorem nodup_beside (l : Location) : (beside l).toList.Nodup := by
  rw [toList_beside]
  refine (nodup_generatedNames _).map fun x y h => ?_
  simpa using h

theorem ne_of_nodup {p : Places} (h : p.toList.Nodup) :
    p.declaration ≠ p.autoMock ∧ p.userMock ≠ p.autoMock ∧ p.userMock ≠ p.declaration := by
  simpa [toList, List.nodup_cons, eq_comm, and_assoc] using h

/-- The places are distinct, and files can be written there: they stand in directories of one depth. -/
structure Ready (p : Places) (t : FileTree) : Prop where
  names : ∀ v ∈ p.toList, ∀ x ∈ v, IsName x
  nodup : p.toList.Nodup
  stands : ∀ v ∈ p.toList, t.Stands v
  depth : ∃ n, ∀ v ∈ p.toList, v.length = n + 1

/-- Files can be written beside a module that can be read. -/
theorem ready_beside {t : FileTree} {cwd l : Location} {text : String} (hl : ∀ x ∈ l, IsName x)
    (h : t.readText cwd (Path.ofLocation l).toString = .ok text) : (beside l).Ready t where
  names := fun _ hv => names_beside hl hv
  nodup := nodup_beside l
  stands := by
    rw [toList_beside, List.forall_mem_map]
    exact fun x _ => stands_of_readText hl h x
  depth := by
    refine ⟨l.dropLast.length, ?_⟩
    rw [toList_beside, List.forall_mem_map]
    simp

namespace Ready

variable {p : Places} {t : FileTree} {v : Location}

/-- A place is not the root. -/
theorem ne_nil (hr : p.Ready t) (hv : v ∈ p.toList) : v ≠ [] := by
  obtain ⟨n, hn⟩ := hr.depth
  rintro rfl
  exact absurd (hn _ hv) (by simp)

theorem ne (hr : p.Ready t) :
    p.declaration ≠ p.autoMock ∧ p.userMock ≠ p.autoMock ∧ p.userMock ≠ p.declaration := ne_of_nodup hr.nodup

/-- A new item at one of the places leaves them ready. -/
theorem put (hr : p.Ready t) (hv : v ∈ p.toList) (i : Item) : p.Ready (t.put v i) where
  names := hr.names
  nodup := hr.nodup
  stands := by
    obtain ⟨n, hn⟩ := hr.depth
    intro u hu
    exact (hr.stands u hu).put (by rw [hn u hu, hn v hv]) i
  depth := hr.depth

end Ready

end Places

end ModuleMock
