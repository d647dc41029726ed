import Atools.Shell

/-!
# Compiling into a fresh folder and archiving it

Both build scripts work in the same way: a folder is emptied or made, the compiler fills it with
objects, and all objects in it are added to an archive further up.  `merge` is what the archiver
makes of an archive and such a folder.  A member is afterwards the object written last under its
name in the folder, or else what it was before (`lookup_merge_objects`).

Object names reach the archiver as they are only when they are clean (`cleanObject`): no blank, no
character cmd.exe acts on, no `;` in front.
-/

namespace Atools

open Batch

/-- The objects one compiler call writes, in order. -/
def objects (flags srcs : List Str) (stamp : ℕ) : List (Str × Obj) :=
  srcs.map fun s => (objectName s, ⟨s, flags, stamp⟩)

/-- An object name that reaches the archiver as it is. -/
def cleanObject (n : Str) : Bool :=
  ".o".toList.isSuffixOf n && n.head? != some ';' && n.all fun c => !(blank c || actsBare c)

/-- The archive after all files of a folder are added to it. -/
def merge (a : Members) (f : AList fun _ : Str => File) : Members :=
  writeAll a (f.keys.filterMap fun n => (f.lookup n).map fun x => (n, x.member))

theorem lookup_merge (a : Members) (f : AList fun _ : Str => File) (n : Str) :
    (merge a f).lookup n = ((f.lookup n).map File.member).or (a.lookup n) := by
  have hmap : (f.keys.filterMap fun n => (f.lookup n).map fun x => (n, x.member)) =
      f.keys.filterMap fun n => ((f.lookup n).map File.member).map fun x => (n, x) := by
    simp only [Option.map_map]
    rfl
  rw [merge, lookup_writeAll, hmap, lastWrite_filterMap]
  by_cases hn : n ∈ f.keys
  · rw [if_pos hn]
  · have hnone : f.lookup n = none := AList.lookup_eq_none.mpr hn
    rw [if_neg hn, hnone]; rfl

/-- The files for the objects. -/
def asFiles (ws : List (Str × Obj)) : List (Str × File) := ws.map fun w => (w.1, .object w.2)

/-- The folder a compiler call leaves when it was empty before. -/
def objectFolder (ws : List (Str × Obj)) : AList fun _ : Str => File :=
  writeAll ∅ (asFiles ws)

theorem lookup_objectFolder (ws : List (Str × Obj)) (n : Str) :
    (objectFolder ws).lookup n = (lastWrite n ws).map File.object := by
  rw [objectFolder, asFiles, lookup_writeAll, AList.lookup_empty, Option.or_none,
    lastWrite_map]

theorem mem_objectFolder {ws : List (Str × Obj)} {n : Str} :
    n ∈ objectFolder ws ↔ ∃ o, (n, o) ∈ ws := by
  rw [objectFolder, mem_writeAll]
  constructor
  · rintro (h | ⟨x, hx⟩)
    · exact absurd h (AList.notMem_empty n)
    · obtain ⟨w, hw, heq⟩ := List.mem_map.mp hx
      rw [Prod.mk.injEq] at heq
      exact ⟨w.2, heq.1 ▸ hw⟩
  · rintro ⟨o, ho⟩
    exact Or.inr ⟨.object o, List.mem_map.mpr ⟨(n, o), ho, rfl⟩⟩

theorem lookup_merge_objects (a : Members) (ws : List (Str × Obj)) (n : Str) :
    (merge a (objectFolder ws)).lookup n = (lastWrite n ws).or (a.lookup n) := by
  rw [lookup_merge, lookup_objectFolder, Option.map_map]
  cases lastWrite n ws <;> rfl

/-! ### Object names on their way to the archiver -/

/-- A clean name is one argument. -/
theorem fields_of_clean {n : Str} (h : cleanObject n = true) : fields blank n = [n] := by
  simp only [cleanObject, Bool.and_eq_true, List.all_eq_true, Bool.not_eq_true',
    Bool.or_eq_false_iff] at h
  obtain ⟨⟨hsuffix, _⟩, hall⟩ := h
  have hne : n ≠ [] := by
    rintro rfl
    revert hsuffix
    decide
  rw [fields_of_no_delim fun c hc => (hall c hc).1, if_neg hne]

/-- A clean name is listed as it is. -/
theorem listedName_of_clean (cmd : Interpreter) {n : Str} (h : cleanObject n = true) :
    listedName cmd actsBare n = some n := by
  simp only [cleanObject, Bool.and_eq_true, List.all_eq_true, Bool.not_eq_true',
    Bool.or_eq_false_iff, bne_iff_ne, ne_eq] at h
  obtain ⟨⟨hsuffix, hhead⟩, hall⟩ := h
  cases n with
  | nil => exact absurd hsuffix (by decide)
  | cons c cs =>
    have hdrop : (c :: cs).dropWhile blank = c :: cs := by
      rw [List.dropWhile_cons, if_neg]
      rw [(hall c List.mem_cons_self).1]
      exact Bool.noConfusion
    have hacts : (c :: cs).any actsBare = false := by
      rw [List.any_eq_false]
      intro x hx
      rw [(hall x hx).2]
      exact Bool.noConfusion
    rw [listedName, if_neg hhead, hdrop]
    simp only [hacts, Bool.false_eq_true, if_false]

namespace Shell

variable {sh : Shell} {f : AList fun _ : Str => File}

theorem objectFiles_of_clean (cmd : Interpreter) (hf : sh.disk.folder sh.cwd = some f)
    (hclean : ∀ n ∈ f, cleanObject n = true) : sh.objectFiles cmd = f.keys := by
  have hsuffix : f.keys.filter (fun n => ".o".toList.isSuffixOf n) = f.keys := by
    rw [List.filter_eq_self]
    intro n hn
    have h := hclean n hn
    simp only [cleanObject, Bool.and_eq_true] at h
    exact h.1.1
  rw [objectFiles, hf]
  show (f.keys.filter fun n => ".o".toList.isSuffixOf n).filterMap (listedName cmd actsBare) = _
  rw [hsuffix, List.filterMap_congr fun n hn => listedName_of_clean cmd (hclean n hn),
    List.filterMap_some]

/-- **Archiving a folder of clean objects** adds every one of them. -/
theorem ar_objectFiles (cmd : Interpreter) (hf : sh.disk.folder sh.cwd = some f)
    (hclean : ∀ n ∈ f, cleanObject n = true) (target : Str) :
    sh.ar target (sh.objectFiles cmd) =
      match sh.archiveAt (resolve sh.cwd target) with
      | none => sh
      | some a =>
        { sh with disk := sh.disk.write (resolve sh.cwd target) (.archive (merge a f)) } := by
  have hargs : f.keys.flatMap (fields blank) = f.keys := by
    rw [List.flatMap_congr fun n hn => fields_of_clean (hclean n hn), List.flatMap_singleton']
  have hfile : ∀ n, sh.disk.file sh.cwd n = f.lookup n := by
    intro n
    rw [Disk.file, hf, Option.bind_some]
  have hall : (f.keys.all fun n => (f.lookup n).isSome) = true := by
    rw [List.all_eq_true]
    exact fun n hn => AList.lookup_isSome.mpr hn
  rw [objectFiles_of_clean cmd hf hclean]
  simp only [ar, hargs, hfile, hall, if_true]
  rfl

end Shell

/-! ### The folder and the archive afterwards -/

/-- `if exist FOLDER\ rd FOLDER`, `mkdir FOLDER` and `cd FOLDER`. -/
theorem enter_renewed (sh : Shell) {s : Str} {p : Path} (hs : resolve sh.cwd s = p)
    (hs' : resolve sh.cwd (s ++ ['\\']) = p) (hfree : sh.disk.blocked p = false)
    (hcwd : ¬ p <+: sh.cwd) :
    ((if sh.isDir (s ++ ['\\']) then sh.rd s else sh).mkdir s).cd s =
      { sh with disk := sh.disk.renew sh.cwd p, cwd := p } := by
  have hmade : (if sh.isDir (s ++ ['\\']) then sh.rd s else sh).mkdir s =
      { sh with disk := sh.disk.renew sh.cwd p } := by
    rw [Shell.isDir, hs', Disk.renew]
    by_cases hdir : sh.disk.isDir p = true
    · rw [if_pos hdir, if_pos hdir]
      simp only [Shell.rd, Shell.mkdir, hs]
    · rw [if_neg hdir, if_neg hdir]
      simp only [Shell.mkdir, hs]
  have hnew : (sh.disk.renew sh.cwd p).isDir p = true := Disk.isDir_renew hfree hcwd
  rw [hmade, Shell.cd]
  simp only [Shell.isDir, hs, hnew, if_true]

/-- The members of the archive at a path. -/
def members (d : Disk File) (p : Path) : Members :=
  match d.fileAt p with
  | some (.archive a) => a
  | _ => ∅

/-- What the archiver can work on: an archive or nothing. -/
def extendable : Option File → Bool
  | none => true
  | some (.archive _) => true
  | some _ => false

/-- The archiver can write to a path. -/
def archivable (d : Disk File) (p : Path) : Bool := !d.isDir p && extendable (d.fileAt p)

theorem archiveAt_of_archivable {sh : Shell} {p : Path} (h : archivable sh.disk p = true) :
    sh.archiveAt p = some (members sh.disk p) := by
  rw [archivable, Bool.and_eq_true] at h
  rw [Shell.archiveAt, members]
  cases hfile : sh.disk.fileAt p with
  | none => rfl
  | some x =>
    cases x with
    | archive a => rfl
    | text lines | object o | other =>
      rw [hfile] at h
      exact absurd h.2 Bool.false_ne_true

/-- `d'` is `d` with the folder `t` made anew out of the objects `ws`, which are also added to the
archive `n` in the folder `o`.  Nothing else has changed. -/
structure Archived (d d' : Disk File) (t o : Path) (n : Str) (ws : List (Str × Obj)) : Prop where
  fresh : d'.folder t = some (objectFolder ws)
  under : ∀ q, t <+: q → q ≠ t → d'.folder q = none
  frame : ∀ q, ¬ t <+: q → q ≠ o → d'.folder q = d.folder q
  archive : ∃ a : Members, d'.folder o = (d.folder o).map (fun f => f.insert n (.archive a)) ∧
    ∀ m, a.lookup m = (lastWrite m ws).or ((members d (o ++ [n])).lookup m)

/-- A renewed folder with objects compiled into it. -/
theorem folder_put_renew {d : Disk File} {cwd p : Path} {t : Str} (ws : List (Str × Obj))
    (hp : d.isDir p = true) (hfree : d.file p t = none) (hcwd : ¬ p ++ [t] <+: cwd) (q : Path) :
    ((d.renew cwd (p ++ [t])).put (p ++ [t]) (asFiles ws)).folder q =
      if q = p ++ [t] then some (objectFolder ws)
      else if p ++ [t] <+: q then none
      else d.folder q := by
  have hblocked : d.blocked (p ++ [t]) = false := by
    rw [Disk.blocked_concat t hp, hfree]; rfl
  have hrenew := Disk.folder_renew hblocked hcwd
  by_cases hq : q = p ++ [t]
  · subst hq
    rw [if_pos rfl, Disk.folder_put_self (f := ∅) (by rw [hrenew, if_pos rfl])]
    · rfl
    · intro w _
      rw [Disk.isDir, hrenew, if_neg (by simp), if_pos (List.prefix_append _ _)]; rfl
  · rw [if_neg hq, Disk.folder_put_ne _ _ hq, hrenew, if_neg hq]
    split
    · rfl
    · split
      · rename_i hqp
        have habove : q <+: p := by
          rcases List.prefix_concat_iff.mp hqp with h | h
          · exact absurd h hq
          · exact h
        obtain ⟨f, hf⟩ := Option.isSome_iff_exists.mp (Disk.isDir_above habove hp)
        rw [hf]; rfl
      · rfl

/-- **One build.**  In a renewed folder with objects in it, the archiver adds them to the archive
further up. -/
theorem ar_renewed (cmd : Interpreter) (sh : Shell) (cwd : Path) {d : Disk File} {p o : Path}
    {t n target : Str} {ws : List (Str × Obj)} (hsh : sh.cwd = p ++ [t])
    (hdisk : sh.disk = (d.renew cwd (p ++ [t])).put (p ++ [t]) (asFiles ws))
    (htarget : resolve (p ++ [t]) target = o ++ [n])
    (hp : d.isDir p = true) (hfree : d.file p t = none) (hcwd : ¬ p ++ [t] <+: cwd)
    (ho : o <+: p) (hne : n ≠ t) (har : archivable d (o ++ [n]) = true)
    (hclean : ∀ w ∈ ws, cleanObject w.1 = true) :
    ∃ d', sh.ar target (sh.objectFiles cmd) = { sh with disk := d' } ∧
      Archived d d' (p ++ [t]) o n ws := by
  have hfolder := folder_put_renew ws hp hfree hcwd
  rw [← hdisk] at hfolder
  have hlen := ho.length_le
  have hto : o ≠ p ++ [t] := by
    rintro rfl
    rw [List.length_append, List.length_singleton] at hlen
    omega
  have hnot : ¬ p ++ [t] <+: o := by
    intro h
    have hlen' := h.length_le
    rw [List.length_append, List.length_singleton] at hlen'
    omega
  have hnt : o ++ [n] ≠ p ++ [t] := by
    intro h
    exact hne (List.append_inj_right' h rfl |> List.singleton_inj.mp)
  have ho' : sh.disk.folder o = d.folder o := by
    rw [hfolder, if_neg hto, if_neg hnot]
  have hfile : sh.disk.fileAt (o ++ [n]) = d.fileAt (o ++ [n]) := by
    rw [Disk.fileAt_concat, Disk.fileAt_concat, Disk.file, Disk.file, ho']
  have hdir : sh.disk.isDir (o ++ [n]) = false := by
    have hold : d.isDir (o ++ [n]) = false := by
      simp only [archivable, Bool.and_eq_true, Bool.not_eq_true'] at har
      exact har.1
    rw [Disk.isDir, hfolder, if_neg hnt]
    split
    · rfl
    · exact hold
  have har' : archivable sh.disk (o ++ [n]) = true := by
    simp only [archivable, Bool.and_eq_true] at har ⊢
    rw [hdir, hfile]
    exact ⟨rfl, har.2⟩
  have hmembers : members sh.disk (o ++ [n]) = members d (o ++ [n]) := by
    rw [members, members, hfile]
  have hself : sh.disk.folder sh.cwd = some (objectFolder ws) := by
    rw [hsh, hfolder, if_pos rfl]
  have hnames : ∀ m ∈ objectFolder ws, cleanObject m = true := by
    intro m hm
    obtain ⟨x, hx⟩ := mem_objectFolder.mp hm
    exact hclean _ hx
  refine ⟨sh.disk.put o [(n, .archive (merge (members d (o ++ [n])) (objectFolder ws)))], ?_, ?_⟩
  · rw [Shell.ar_objectFiles cmd hself hnames, hsh, htarget, archiveAt_of_archivable har', hmembers,
      ← Disk.write_concat]
  · refine ⟨?_, ?_, ?_, merge (members d (o ++ [n])) (objectFolder ws), ?_, ?_⟩
    · rw [Disk.folder_put_ne _ _ (Ne.symm hto), ← hsh, hself]
    · intro q hq hqt
      have hqo : q ≠ o := by
        rintro rfl
        exact hnot hq
      rw [Disk.folder_put_ne _ _ hqo, hfolder, if_neg hqt, if_pos hq]
    · intro q hq hqo
      have hqt : q ≠ p ++ [t] := by
        rintro rfl
        exact hq List.prefix_rfl
      rw [Disk.folder_put_ne _ _ hqo, hfolder, if_neg hqt, if_neg hq]
    · rw [Disk.folder_put, if_pos rfl, ho']
      simp only [List.filter_cons, hdir, Bool.not_false, if_true, List.filter_nil]
      rfl
    · exact lookup_merge_objects _ _

/-! The two ways a build changes the disk seen through `isDir` and `file`. -/

namespace Archived

variable {d d' : Disk File} {t o : Path} {n : Str} {ws : List (Str × Obj)}

theorem isDir_frame (h : Archived d d' t o n ws) {q : Path} (hq : ¬ t <+: q) :
    d'.isDir q = d.isDir q := by
  by_cases hqo : q = o
  · obtain ⟨a, ha, _⟩ := h.archive
    rw [hqo, Disk.isDir, ha, Option.isSome_map]; rfl
  · rw [Disk.isDir, h.frame q hq hqo]; rfl

theorem file_frame (h : Archived d d' t o n ws) {q : Path} (hq : ¬ t <+: q) {m : Str}
    (hm : q ≠ o ∨ m ≠ n) : d'.file q m = d.file q m := by
  by_cases hqo : q = o
  · obtain ⟨a, ha, _⟩ := h.archive
    have hmn := hm.resolve_left fun hne => hne hqo
    subst hqo
    rw [Disk.file, Disk.file, ha]
    cases d.folder q with
    | none => rfl
    | some f =>
      rw [Option.map_some, Option.bind_some, Option.bind_some, AList.lookup_insert_ne hmn]
  · rw [Disk.file, h.frame q hq hqo]; rfl

theorem file_archive (h : Archived d d' t o n ws) (hdir : d.isDir o = true) :
    ∃ a, d'.file o n = some (.archive a) ∧
      ∀ m, a.lookup m = (lastWrite m ws).or ((members d (o ++ [n])).lookup m) := by
  obtain ⟨a, ha, hlookup⟩ := h.archive
  obtain ⟨f, hf⟩ := Option.isSome_iff_exists.mp hdir
  refine ⟨a, ?_, hlookup⟩
  rw [Disk.file, ha, hf, Option.map_some, Option.bind_some, AList.lookup_insert]

end Archived

end Atools
