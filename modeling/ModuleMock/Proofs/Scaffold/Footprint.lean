import ModuleMock.Proofs.Modules.Nesting
import ModuleMock.Proofs.Scaffold.Outcome

/-!
# What generating files touches

`ScaffoldFootprint` and `BundleFootprint` say how the tree after a job compares with the tree before, whether the job
comes to a report or fails. For scaffolding this is read off its possible outcomes; for bundling, which may also make
directories, it is an invariant of each of its steps (`ensures_bundle_sameFiles`).
-/

namespace ModuleMock

/-! ## Reading what was written -/

namespace FileTree

variable {t : FileTree} {cwd : Location} {s : String}

/-- The file at a written path can be opened, and its bytes are text. -/
def IsText (t : FileTree) (cwd : Location) (s : String) : Prop :=
  ∃ bytes text, t.read cwd s = .ok bytes ∧ Text.decode bytes = .ok text

/-- What is read as a text is one. -/
theorem isText_of_readText {text : String} (h : t.readText cwd s = .ok text) : t.IsText cwd s := by
  unfold readText at h
  split at h
  · cases h
  · rename_i bytes hread
    split at h
    · cases h
    · rename_i text' hlines
      unfold Text.decodeLines at hlines
      cases hd : Text.decode bytes with
      | error fault => rw [hd] at hlines; cases hlines
      | ok text => exact ⟨bytes, text, hread, hd⟩

/-- What is no text cannot be read. -/
theorem readText_eq_error (h : ¬ t.IsText cwd s) : ∃ fault, t.readText cwd s = .error fault := by
  cases hr : t.readText cwd s with
  | error fault => exact ⟨fault, rfl⟩
  | ok text => exact absurd (isText_of_readText hr) h

end FileTree

/-- Places that are ready are read as they stand. -/
theorem Places.Ready.read {p : Places} {t : FileTree} {v : Location} {content : Bytes} (hr : p.Ready t)
    (hv : v ∈ p.toList) (h : t.item? v = some (.file content)) (cwd : Location) :
    t.read cwd (Path.ofLocation v).toString = .ok content := by
  unfold FileTree.read
  rw [(FileTree.follow_ofLocation (hr.names v hv)).2 ⟨rfl, hr.stands v hv⟩]
  simp only [bind, Except.bind, h]

/-! ## Scaffolding -/

def GeneratedFiles.toList (files : GeneratedFiles) : List Path := [files.autoMock, files.declaration, files.userMock]

/-- Their texts, in the same order. -/
def Mocks.toList (mocks : Mocks) : List String := [mocks.autoMock, mocks.declaration, mocks.userMock]

/-- The absolute path of the module that a path leads to. -/
def entryPath (cwd : Location) (path : String) : Path := .ofLocation (Path.resolve cwd (.ofString path))

/-- What scaffolding a module touches, from the tree before, what it came to, and the tree after. -/
structure ScaffoldFootprint (cwd : Location) (path mount : String) (t : FileTree) (r : Except FileFault Report)
    (t' : FileTree) : Prop where
  /-- Nothing changes but the generated files. -/
  elsewhere : ∀ l ∉ (GeneratedFiles.beside (entryPath cwd path)).toList.map (Path.resolve cwd), t'.item? l = t.item? l
  /-- The module changes only if it has the name of the mock that is written anew each time. -/
  entry : (entryPath cwd path).name ≠ "_mock.auto.ts" →
    t'.item? (Path.resolve cwd (.ofString path)) = t.item? (Path.resolve cwd (.ofString path))
  /-- A report names the generated files in order. -/
  reported : ∀ report, r = .ok report → report.written ++ report.skipped =
    (GeneratedFiles.beside (entryPath cwd path)).toList.map Path.toString
  /-- Two of them are written anew each time. -/
  anew : ∀ report, r = .ok report →
    (GeneratedFiles.beside (entryPath cwd path)).autoMock.toString ∈ report.written ∧
      (GeneratedFiles.beside (entryPath cwd path)).declaration.toString ∈ report.written
  /-- What it calls written has the text for the surface that the module had before. -/
  written : ∀ report, r = .ok report → ∃ s, Modules.fileSurface ⟨t, cwd⟩ (entryPath cwd path).toString = .ok s ∧
    ∀ file text, (file, text) ∈ (GeneratedFiles.beside (entryPath cwd path)).toList.zip
        (Mocks.ofSurface s mount (preloadId (entryPath cwd path))).toList →
      file.toString ∈ report.written → t'.read cwd file.toString = .ok (Text.encode text)
  /-- Where the module is no text, nothing happens. -/
  unread : ¬ t.IsText cwd (entryPath cwd path).toString → (∃ fault, r = .error fault) ∧ t' = t

/-- The generated files are at the places beside the entry module. -/
theorem toList_files_beside {l : Location} (hl : ∀ x ∈ l, IsName x) :
    (GeneratedFiles.beside (.ofLocation l)).toList = (Places.beside l).toList.map .ofLocation := by
  rw [Places.files_beside hl]
  rfl

/-- Resolving their paths gives these places, from every working directory. -/
theorem resolve_files_beside {l : Location} (hl : ∀ x ∈ l, IsName x) (cwd : Location) :
    (GeneratedFiles.beside (.ofLocation l)).toList.map (Path.resolve cwd) = (Places.beside l).toList := by
  rw [toList_files_beside hl, List.map_map]
  refine (List.map_congr_left fun v hv => ?_).trans (List.map_id _)
  exact resolve_ofLocation (Places.names_beside hl hv) cwd

/-- The written paths of the generated files differ. -/
theorem nodup_files_beside {p : Path} (hp : p.Proper) : ((GeneratedFiles.beside p).toList.map Path.toString).Nodup := by
  have hlist : (GeneratedFiles.beside p).toList =
      (generatedNames (preloadId p)).map fun x => ⟨p.root, p.parts.dropLast ++ [x]⟩ := by
    rw [beside_of_proper hp]
    rfl
  have hproper : ∀ x ∈ generatedNames (preloadId p), (⟨p.root, p.parts.dropLast ++ [x]⟩ : Path).Proper := by
    refine fun x hx => ⟨hp.root, fun y hy => ?_⟩
    rcases List.mem_append.1 hy with hy | hy
    · exact hp.parts y (List.mem_of_mem_dropLast hy)
    · obtain rfl := List.mem_singleton.1 hy
      exact (isName_of_mem_generatedNames hp hx).1
  rw [hlist, List.map_map]
  refine (nodup_generatedNames _).map_on fun x hx y hy h => ?_
  have hpaths := congrArg Path.ofString h
  rw [Function.comp_apply, Function.comp_apply, Path.ofString_toString (hproper x hx),
    Path.ofString_toString (hproper y hy)] at hpaths
  simpa using hpaths

/-- What a report calls written has its text. -/
theorem Refreshes.read_written {w : Workspace} {l : Location} {mocks : Mocks} {t' : FileTree} {text content : String}
    {file : Path} (hr : Refreshes (Places.beside l) mocks w.tree t') (hl : ∀ x ∈ l, IsName x)
    (hf : (file, content) ∈ (GeneratedFiles.beside (.ofLocation l)).toList.zip mocks.toList)
    (hw : file.toString ∈ (reportAt w l text (w.tree.item? (Places.beside l).userMock).isNone).written)
    (cwd : Location) : t'.read cwd file.toString = .ok (Text.encode content) := by
  rw [toList_files_beside hl] at hf
  simp only [Places.toList, Mocks.toList, List.map_cons, List.map_nil, List.zip_cons_cons, List.zip_nil_left,
    List.mem_cons, Prod.mk.injEq, List.not_mem_nil, or_false] at hf
  rcases hf with ⟨rfl, rfl⟩ | ⟨rfl, rfl⟩ | ⟨rfl, rfl⟩
  · exact hr.ready.read (Places.autoMock_mem _) hr.autoMock cwd
  · exact hr.ready.read (Places.declaration_mem _) hr.declaration cwd
  · -- the mock for editing is called written only where nothing was
    have hnone := (userMock_mem_reportAt hl _ _ _).1.1 hw
    refine hr.ready.read (Places.userMock_mem _) ?_ cwd
    rw [hr.userMock, Option.isNone_iff_eq_none.1 hnone]
    rfl

/-- An entry module that is no text fails the scaffold, and nothing is written. -/
theorem Scaffolded.fails_of_not_isText {w : Workspace} {l : Location} {mount : String} {r : Except FileFault Report}
    {t' : FileTree} (h : Scaffolded w l mount r t') (hu : ¬ w.tree.IsText w.cwd (Path.ofLocation l).toString) :
    (∃ fault, r = .error fault) ∧ t' = w.tree := by
  obtain ⟨fault, hfault⟩ := FileTree.readText_eq_error hu
  cases h with
  | unread hread => exact ⟨⟨_, rfl⟩, rfl⟩
  | noAutoMock hread => cases hfault.symm.trans hread
  | noDeclaration hread => cases hfault.symm.trans hread
  | refreshed hread => cases hfault.symm.trans hread
  | completed hread => cases hfault.symm.trans hread

/-- Every scaffold keeps to its footprint. -/
theorem scaffoldFootprint {cwd : Location} (hcwd : ∀ x ∈ cwd, IsName x) (path mount : String) (d : Desk) :
    ScaffoldFootprint cwd path mount d.tree ((scaffold cwd path mount).outcome d).1
      ((scaffold cwd path mount).outcome d).2.tree := by
  have h := scaffolded_outcome hcwd path mount d
  have hnames := isName_resolve hcwd path
  generalize ((scaffold cwd path mount).outcome d).1 = r at h ⊢
  generalize ((scaffold cwd path mount).outcome d).2.tree = t' at h ⊢
  refine ⟨?_, ?_, ?_, ?_, ?_, ?_⟩
  · intro l hl
    rw [entryPath, resolve_files_beside hnames] at hl
    exact h.elsewhere hl
  · exact fun hname => h.elsewhere (Places.not_mem_beside hname)
  · rintro report rfl
    rw [entryPath, toList_files_beside hnames, List.map_map]
    obtain ⟨text, -, rfl, -⟩ := h.of_ok hnames
    cases (d.tree.item? (Places.beside (Path.resolve cwd (.ofString path))).userMock).isNone with
    | true => rfl
    | false => rfl
  · rintro report rfl
    rw [entryPath, Places.files_beside hnames]
    obtain ⟨text, -, rfl, -⟩ := h.of_ok hnames
    simp [reportAt]
  · rintro report rfl
    obtain ⟨text, hread, rfl, hr⟩ := h.of_ok hnames
    exact ⟨_, Modules.fileSurface_of_readText hread, fun file content hf hw => hr.read_written hnames hf hw cwd⟩
  · exact h.fails_of_not_isText

/-! ## Bundling -/

/-- What bundling touches, from the tree before, what it came to, and the tree after. -/
structure BundleFootprint (cwd : Location) (compiled out path : String) (t : FileTree) (r : Except FileFault Report)
    (t' : FileTree) : Prop where
  /-- No file changes but the bundle and the declaration file. -/
  elsewhere : FileTree.SameFiles [Path.resolve cwd (.ofString out),
    Path.resolve cwd (GeneratedFiles.beside (entryPath cwd path)).declaration] t t'
  /-- Where the compiled file or the module is no text, nothing happens. -/
  unread : ¬ t.IsText cwd (Path.ofString compiled).toString ∨ ¬ t.IsText cwd (entryPath cwd path).toString →
    (∃ fault, r = .error fault) ∧ t' = t

section

variable {cwd : Location} {T : List Location} {t : FileTree}

/-- A write to one of the places changes no other file. -/
theorem ensures_writeText_sameFiles {p : Path} (hp : p.Proper) (hT : Path.resolve cwd p ∈ T) (text : String) :
    Job.Ensures (FileTree.SameFiles T t) (Job.writeText cwd p text) (fun _ => FileTree.SameFiles T t)
      (FileTree.SameFiles T t) := by
  refine Job.ensures_writeText_invariant text (fun t' l h hl => h.put_directory hl) fun t' content h _ => ?_
  rw [Path.ofString_toString hp]
  exact h.put_mem hT _

/-- A bundle changes only its output and the declaration file, if it changes any file. -/
theorem ensures_bundle_sameFiles (hcwd : ∀ x ∈ cwd, IsName x) (compiled : String) {out path : String}
    (hout : Path.resolve cwd (.ofString out) ∈ T)
    (hdecl : Path.resolve cwd (GeneratedFiles.beside (entryPath cwd path)).declaration ∈ T) (mount : String) :
    Job.Ensures (FileTree.SameFiles T t) (bundle cwd compiled out path mount) (fun _ => FileTree.SameFiles T t)
      (FileTree.SameFiles T t) := by
  have hnames := isName_resolve hcwd path
  have hproper : (GeneratedFiles.beside (entryPath cwd path)).declaration.Proper := by
    rw [entryPath, Places.files_beside hnames]
    exact Path.proper_ofLocation (Places.names_beside hnames (Places.declaration_mem _))
  refine .bind ((Job.ensures_look _).weaken (fun _ h => h) (fun _ _ h => h.1) fun _ h => h) fun code => ?_
  refine .bind (Job.ensures_note _ _ _) fun _ => ?_
  refine .bind (Job.ensures_analyzeEntry cwd _) fun s => ?_
  refine .bind (ensures_writeText_sameFiles (Path.proper_ofString out) hout _) fun _ => ?_
  exact .bind (ensures_writeText_sameFiles hproper hdecl _) fun _ => ⟨fun _ h => h⟩

/-- A bundle fails before it writes if one of its two inputs is no text. -/
theorem leads_bundle_error {compiled path : String} (h : ¬ t.IsText cwd (Path.ofString compiled).toString ∨
    ¬ t.IsText cwd (entryPath cwd path).toString) (out mount : String) :
    ∃ fault, Job.Leads (bundle cwd compiled out path mount) t (.error fault) t := by
  cases hc : t.readText cwd (Path.ofString compiled).toString with
  | error fault => exact ⟨fault, .bind_error (Job.leads_look_error hc) _⟩
  | ok code =>
    obtain ⟨fault, hfault⟩ := FileTree.readText_eq_error (h.resolve_left fun h => h (FileTree.isText_of_readText hc))
    exact ⟨fault, .bind (Job.leads_look_ok hc)
      (.bind (Job.leads_note _ _ _ t) (.bind_error (Job.leads_analyzeEntry_error hfault) _))⟩

end

/-- Every bundle keeps to its footprint. -/
theorem bundleFootprint {cwd : Location} (hcwd : ∀ x ∈ cwd, IsName x) (compiled out path mount : String) (d : Desk) :
    BundleFootprint cwd compiled out path d.tree ((bundle cwd compiled out path mount).outcome d).1
      ((bundle cwd compiled out path mount).outcome d).2.tree where
  elsewhere := (ensures_bundle_sameFiles hcwd compiled (.head _) (.tail _ (.head _)) mount).after (.refl _ d.tree)
  unread := by
    intro h
    obtain ⟨fault, hleads⟩ := leads_bundle_error h out mount
    obtain ⟨log, ho⟩ := hleads.of_run d.log
    rw [ho]
    exact ⟨⟨fault, rfl⟩, rfl⟩

/-- **Generating files touches only their own places.** The paths of the files for a module are distinct. Scaffolding
changes nothing elsewhere, and its report tells which of the files have their new texts; bundling changes no file but two.
Where what they read is no text, they fail and leave the tree as it was. -/
theorem generation_touches_own_files (cwd : Location) (hcwd : ∀ x ∈ cwd, IsName x) (path mount : String) (d : Desk) :
    ((GeneratedFiles.beside (.ofString path)).toList.map Path.toString).Nodup ∧
      ((GeneratedFiles.beside (entryPath cwd path)).toList.map Path.toString).Nodup ∧
      ScaffoldFootprint cwd path mount d.tree ((scaffold cwd path mount).outcome d).1
        ((scaffold cwd path mount).outcome d).2.tree ∧
      ∀ compiled out, BundleFootprint cwd compiled out path d.tree ((bundle cwd compiled out path mount).outcome d).1
        ((bundle cwd compiled out path mount).outcome d).2.tree :=
  ⟨nodup_files_beside (Path.proper_ofString path),
    nodup_files_beside (Path.proper_ofLocation (isName_resolve hcwd path)), scaffoldFootprint hcwd path mount d,
    fun compiled out => bundleFootprint hcwd compiled out path mount d⟩

/-- A module that is text and one that is not. -/
def halfTextDesk : Desk where
  tree := ⟨[(["app"], .directory), (["app", "x.ts"], .file (Text.encode "export const a = 1")),
    (["app", "y.ts"], .file [0xff])]⟩
  log := []

theorem generation_touches_own_files_halfText :
    (∀ x ∈ ["app"], IsName x) ∧ ¬ halfTextDesk.tree.IsText ["app"] "/app/y.ts" ∧
      ((scaffold ["app"] "y.ts" "preload").outcome halfTextDesk).2.tree = halfTextDesk.tree ∧
      ((bundle ["app"] "x.ts" "out/b.js" "y.ts" "preload").outcome halfTextDesk).2.tree = halfTextDesk.tree ∧
      ∃ report d', (scaffold ["app"] "x.ts" "preload").outcome halfTextDesk = (.ok report, d') ∧
        report.written ++ report.skipped = ["/app/_mock.auto.ts", "/app/_x.d.ts", "/app/x.mock.ts"] ∧
        d'.tree.item? ["app", "y.ts"] = some (.file [0xff]) := by
  have hcwd : ∀ x ∈ ["app"], IsName x := by decide
  have hread : halfTextDesk.tree.read ["app"] "/app/y.ts" = .ok [0xff] := rfl
  have hbytes : (Text.decode [0xff]).isOk = false := by decide
  have hpath : (entryPath ["app"] "y.ts").toString = "/app/y.ts" := by decide
  have htext : ¬ halfTextDesk.tree.IsText ["app"] "/app/y.ts" := by
    rintro ⟨bytes, text, hread', hdecode⟩
    cases hread.symm.trans hread'
    rw [hdecode] at hbytes
    cases hbytes
  obtain ⟨-, -, hy, hbundle⟩ := generation_touches_own_files ["app"] hcwd "y.ts" "preload" halfTextDesk
  obtain ⟨-, -, hx, -⟩ := generation_touches_own_files ["app"] hcwd "x.ts" "preload" halfTextDesk
  have hok : ((scaffold ["app"] "x.ts" "preload").outcome halfTextDesk).1.isOk := by decide +kernel
  rw [← hpath] at htext
  refine ⟨hcwd, hpath ▸ htext, (hy.unread htext).2, ((hbundle "x.ts" "out/b.js").unread (.inr htext)).2, ?_⟩
  rcases ho : (scaffold ["app"] "x.ts" "preload").outcome halfTextDesk with ⟨r, d'⟩
  rw [ho] at hok hx
  cases r with
  | error fault => cases hok
  | ok report => exact ⟨report, d', rfl, hx.reported report rfl, hx.elsewhere ["app", "y.ts"] (by decide)⟩

end ModuleMock
