import ModuleMock.Proofs.Modules.Guard
import ModuleMock.Proofs.Scaffold.Footprint

/-!
# Scaffolding twice

Scaffolding a module a second time changes nothing, unless its analysis looks at what the first time wrote. The generated
files are no directories, so every path leads where it led before (`Refreshes.directory_iff`); all that the analysis examines
has the same text in the new tree (`Refreshes.sameText`), and so the module has the same surface there.
-/

namespace ModuleMock

namespace Refreshes

variable {places : Places} {mocks : Mocks} {t t' : FileTree} {cwd : Location}

/-- No directory comes or goes. -/
theorem directory_iff (h : Refreshes places mocks t t') (l : Location) :
    t'.item? l = some .directory ↔ t.item? l = some .directory := by
  by_cases hl : l ∈ places.toList
  · simp only [Places.toList, List.mem_cons, List.not_mem_nil, or_false] at hl
    rcases hl with rfl | rfl | rfl
    · have hfree := h.free.1
      rw [h.autoMock]
      simpa [FileTree.isDirectory] using hfree
    · have hfree := h.free.2
      rw [h.declaration]
      simpa [FileTree.isDirectory] using hfree
    · rw [h.userMock]
      cases t.item? places.userMock with
      | none => simp
      | some i => simp
  · rw [h.elsewhere l hl]

/-- A refresh leaves every text beside its places as it was. -/
theorem sameText (h : Refreshes places mocks t t') {s : String}
    (hs : Path.resolve cwd (.ofString s) ∉ places.toList) : FileTree.SameText cwd t t' s :=
  FileTree.sameText_of_item? h.directory_iff (h.elsewhere _ hs)

/-- Writing the same files again changes nothing. -/
theorem item?_refresh (h : Refreshes places mocks t t') (l : Location) :
    (t'.refresh places mocks).item? l = t'.item? l := by
  by_cases ha : l = places.autoMock
  · rw [ha, FileTree.item?_refresh_autoMock h.ready, h.autoMock]
  · by_cases hd : l = places.declaration
    · rw [hd, FileTree.item?_refresh_declaration h.ready, h.declaration]
    · exact FileTree.item?_refresh ha hd t' mocks

end Refreshes

/-- In a tree with the generated files, only their contents can be written anew. -/
theorem Scaffolded.of_refreshes {w : Workspace} {l : Location} {mount text : String} {mocks : Mocks} {t : FileTree}
    {r : Except FileFault Report} {t' : FileTree} (h : Scaffolded w l mount r t')
    (hw : Refreshes (Places.beside l) mocks t w.tree)
    (hread : w.tree.readText w.cwd (Path.ofLocation l).toString = .ok text) :
    r = .ok (reportAt w l text false) ∧ t' = w.tree.refresh (Places.beside l) (mocksAt w l mount text) := by
  cases h with
  | unread hread' => cases hread.symm.trans hread'
  | noAutoMock _ hauto => simp [FileTree.isDirectory, hw.autoMock] at hauto
  | noDeclaration _ _ hdecl => simp [FileTree.isDirectory, hw.declaration] at hdecl
  | refreshed hread' =>
    cases hread.symm.trans hread'
    exact ⟨rfl, rfl⟩
  | completed _ _ _ huser => simp [hw.userMock] at huser

/-- **Scaffolding twice is scaffolding once.** Suppose scaffolding a module returns, and neither the module nor any
candidate that its analysis examines is at the place of a generated file. Then scaffolding it again changes nothing, and
its report differs only in that the mock for editing is skipped. -/
theorem scaffold_again (cwd : Location) (hcwd : ∀ x ∈ cwd, IsName x) (path mount : String) (d d' : Desk)
    (report : Report) (hrun : (scaffold cwd path mount).outcome d = (.ok report, d'))
    (hentry : Path.resolve cwd (.ofString path) ∉
      (GeneratedFiles.beside (entryPath cwd path)).toList.map (Path.resolve cwd))
    (hexamined : ∀ text, d.tree.readText cwd (entryPath cwd path).toString = .ok text →
      ∀ c ∈ Modules.examined ⟨d.tree, cwd⟩ (entryPath cwd path).toString text,
        Modules.key ⟨d.tree, cwd⟩ c.toString ∉
          (GeneratedFiles.beside (entryPath cwd path)).toList.map (Path.resolve cwd)) :
    ∃ d'', (scaffold cwd path mount).outcome d' =
        (.ok { report with
          written := [(GeneratedFiles.beside (entryPath cwd path)).autoMock.toString,
            (GeneratedFiles.beside (entryPath cwd path)).declaration.toString]
          skipped := [(GeneratedFiles.beside (entryPath cwd path)).userMock.toString] }, d'') ∧
      ∀ l, d''.tree.item? l = d'.tree.item? l := by
  have hnames := isName_resolve hcwd path
  have hfirst := scaffolded_outcome hcwd path mount d
  have hsecond := scaffolded_outcome hcwd path mount d'
  rw [hrun] at hfirst
  simp only [entryPath, resolve_files_beside hnames] at hentry hexamined
  obtain ⟨text, hread, rfl, hr⟩ := hfirst.of_ok hnames
  have hread' : d'.tree.readText cwd (Path.ofLocation (Path.resolve cwd (.ofString path))).toString = .ok text := by
    refine (hr.sameText ?_ text).2 hread
    rwa [resolve_toString_ofLocation hnames]
  have hsurface := Modules.surface_of_sameText (t := d'.tree) fun c hc => hr.sameText (hexamined text hread c hc)
  rcases hagain : (scaffold cwd path mount).outcome d' with ⟨r, d''⟩
  rw [hagain] at hsecond
  obtain ⟨rfl, htree⟩ := hsecond.of_refreshes hr hread'
  refine ⟨d'', ?_, fun l => ?_⟩
  · simp only [entryPath, Places.files_beside hnames, reportAt, hsurface]
    rfl
  · rw [htree, mocksAt, hsurface]
    exact hr.item?_refresh l

/-- A module with exports of its own and those of a module beside it. -/
def wildcardDesk : Desk where
  tree := ⟨[(["app"], .directory), (["app", "x.ts"], .file (Text.encode "export * from './y'\nexport const a = 1")),
    (["app", "y.ts"], .file (Text.encode "export const b = 2"))]⟩
  log := []

theorem scaffold_again_wildcard :
    (∀ x ∈ ["app"], IsName x) ∧ ["app", "x.ts"] ∉ (Places.beside ["app", "x.ts"]).toList ∧
      (∀ c ∈ Modules.examined ⟨wildcardDesk.tree, ["app"]⟩ "/app/x.ts" "export * from './y'\nexport const a = 1",
        Modules.key ⟨wildcardDesk.tree, ["app"]⟩ c.toString ∉ (Places.beside ["app", "x.ts"]).toList) ∧
      ∃ report d' d'', (scaffold ["app"] "x.ts" "preload").outcome wildcardDesk = (.ok report, d') ∧
        (scaffold ["app"] "x.ts" "preload").outcome d' =
          (.ok { report with written := ["/app/_mock.auto.ts", "/app/_x.d.ts"], skipped := ["/app/x.mock.ts"] }, d'') ∧
        ∀ l, d''.tree.item? l = d'.tree.item? l := by
  have hcwd : ∀ x ∈ ["app"], IsName x := by decide
  have hentry : ["app", "x.ts"] ∉ (Places.beside ["app", "x.ts"]).toList := by decide
  have hexamined : ∀ c ∈ Modules.examined ⟨wildcardDesk.tree, ["app"]⟩ "/app/x.ts"
      "export * from './y'\nexport const a = 1",
      Modules.key ⟨wildcardDesk.tree, ["app"]⟩ c.toString ∉ (Places.beside ["app", "x.ts"]).toList := by decide +kernel
  have hread : wildcardDesk.tree.readText ["app"] "/app/x.ts" = .ok "export * from './y'\nexport const a = 1" :=
    FileTree.readText_of_toOption (by decide +kernel)
  have hok : ((scaffold ["app"] "x.ts" "preload").outcome wildcardDesk).1.isOk := by decide +kernel
  have hpath : (entryPath ["app"] "x.ts").toString = "/app/x.ts" := by decide
  have hplaces : (GeneratedFiles.beside (entryPath ["app"] "x.ts")).toList.map (Path.resolve ["app"]) =
      (Places.beside ["app", "x.ts"]).toList := by decide
  rcases ho : (scaffold ["app"] "x.ts" "preload").outcome wildcardDesk with ⟨r, d'⟩
  rw [ho] at hok
  cases r with
  | error fault => cases hok
  | ok report =>
    obtain ⟨d'', hagain, hsame⟩ := scaffold_again ["app"] hcwd "x.ts" "preload" wildcardDesk d' report ho
      (by rw [hplaces]; exact hentry)
      (by
        rw [hplaces, hpath]
        intro text htext
        cases hread.symm.trans htext
        exact hexamined)
    exact ⟨hcwd, hentry, hexamined, report, d', d'', rfl, hagain, hsame⟩

end ModuleMock
