import Atools.Libraries

/-!
# `alibs.cmd`: the dependency libraries

The script decides whether its first argument is a configuration name, loads the settings, enters
`libs` in the out folder and builds the targets one after another: each in a folder of its own name,
through the label of that name, its objects added to `libadeps.a`.  A target counts as valid when a
folder of its name is found two levels up.

`buildLibrary_spec` is one target that is a library, `buildLibraries_spec` a run over such targets.
-/

namespace Atools

open Batch

namespace Shell

/-- `rd /s /q NAME` without quotes, where a `/` in the name would start a switch. -/
def rdBare (sh : Shell) (s : Str) : Shell := if '/' ∈ s then sh else sh.rd s

/-- `mkdir NAME` without quotes. -/
def mkdirBare (sh : Shell) (s : Str) : Shell := if '/' ∈ s then sh else sh.mkdir s

end Shell

/-! ### The targets -/

/-- The libraries built when none is named. -/
def defaultLibs (env : Env) : List Str :=
  ["zlib".toList, "png".toList, "freetype".toList] ++
  (if drmNeeded env then ["drm".toList] else []) ++
  (if isSet env "LIBAROMA_JPEG" "yes" then ["jpeg".toList] else []) ++
  (if isSet env "LIBAROMA_HARFBUZZ" "yes" then ["harfbuzz".toList] else [])

/-- `TARGET_LIBS`: at most six of the arguments. -/
def targetLibs (env : Env) (args : List Str) : List Str :=
  if args = [] then defaultLibs env else args.take 6

/-! ### Building them -/

/-- The label of a library. -/
def buildLabel (l : Lib) (sh : Shell) : Shell :=
  if l = .drm ∧ drmNeeded sh.env = false then sh.say .notNeeded
  else sh.compile (l.flags sh.env) (l.sources sh.env)

/-- `call :%%i`.  Besides the libraries there is the label at the end of the script, which a call
runs up to the end of the file. -/
def callLabel (i : Str) (sh : Shell) : Shell :=
  match Lib.ofName i with
  | some l => buildLabel l sh
  | none => if fold i = "end".toList then sh.cd "..\\.." else sh

/-- The body of the loop for a target whose folder is there. -/
def buildLibrary (cmd : Interpreter) (i : Str) (sh : Shell) : Shell :=
  let sh := sh.say (.building i)
  let sh := if sh.isDir (i ++ ['\\']) then sh.rdBare i else sh
  let sh := (sh.mkdirBare i).cd i
  let sh := callLabel i sh
  let sh := sh.ar "..\\..\\libadeps.a" (sh.objectFiles cmd)
  sh.cd ".."

/-- The loop over the targets, which is left at the first one without a folder. -/
def buildLibraries (cmd : Interpreter) : List Str → Shell → Shell
  | [], sh => sh
  | i :: is, sh =>
    if sh.isDir ("..\\..\\".toList ++ (i ++ ['\\'])) then
      buildLibraries cmd is (buildLibrary cmd i sh)
    else sh.say (.invalidName i)

/-- `if not exist "%LIBAROMA_OUT%\libs\" mkdir …`, then `cd`. -/
def enterLibs (sh : Shell) : Shell :=
  let out := sh.env.text "LIBAROMA_OUT"
  let sh := if sh.isDir (out ++ "\\libs\\".toList) then sh else sh.mkdir (out ++ "\\libs".toList)
  sh.cd (out ++ "\\libs".toList)

/-- The settings: the first argument is a configuration name when there is such a file. -/
def alibsSettings (cmd : Interpreter) (args : List Str) (sh : Shell) : Shell :=
  let first := args.headD []
  let sh := if sh.exist ("config-".toList ++ first ++ ".txt".toList) then
    sh.setVar "CUSTOM_CFG" "yes" else sh
  setldr cmd (if (sh.env.get "CUSTOM_CFG").isSome then first else []) sh

/-- `if defined CUSTOM_CFG shift && set CUSTOM_CFG=`: the arguments left and the environment. -/
def shiftConfig (args : List Str) (sh : Shell) : List Str × Shell :=
  if (sh.env.get "CUSTOM_CFG").isSome then (args.tail, sh.setVar "CUSTOM_CFG" []) else (args, sh)

/-- From entering `libs` to the end of the script. -/
def buildTargets (cmd : Interpreter) (args : List Str) (sh : Shell) : Shell :=
  let sh := enterLibs sh
  (buildLibraries cmd (targetLibs sh.env args) sh).cd "..\\.."

/-- `alibs.cmd ARGS…` -/
def alibs (cmd : Interpreter) (args : List Str) (sh : Shell) : Shell :=
  let inner := alibsSettings cmd args sh
  if inner.env.text "LIBAROMA_SOURCE" = [] then leave cmd sh inner
  else if inner.env.text "LIBAROMA_PLATFORM" = [] then leave cmd sh inner
  else
    let (args, inner) := shiftConfig args inner
    leave cmd sh (buildTargets cmd args inner)

/-! ### One target -/

theorem Lib.fold_of_ofName {i : Str} {l : Lib} (h : Lib.ofName i = some l) : fold i = l.name := by
  have hfind := List.find?_some h
  exact (beq_iff_eq.mp hfind).symm

theorem Lib.plainName_of_ofName {i : Str} {l : Lib} (h : Lib.ofName i = some l) :
    plainName i = true := by
  apply plainName_of_fold
  rw [Lib.fold_of_ofName h]
  cases l <;> decide

theorem Lib.no_slash_of_ofName {i : Str} {l : Lib} (h : Lib.ofName i = some l) : '/' ∉ i := by
  have hplain := Lib.plainName_of_ofName h
  simp only [plainName, Bool.and_eq_true, List.all_eq_true, Bool.not_eq_true',
    Bool.or_eq_false_iff] at hplain
  intro hmem
  exact absurd (hplain.2 '/' hmem).1 (by decide)

/-- The archive of the dependency libraries. -/
def depsName : Str := "libadeps.a"

/-- The label of drm does nothing under these settings. -/
def skips (env : Env) (l : Lib) : Bool := l == .drm && !drmNeeded env

/-- The compiler calls of a label. -/
def ticks (env : Env) (l : Lib) : ℕ := if skips env l then 0 else 1

/-- What is reported for a target that is a library. -/
def libEvents (env : Env) (i : Str) (l : Lib) : List Event :=
  .building i :: if skips env l then [.notNeeded] else []

theorem sources_of_skips {env : Env} {l : Lib} (h : skips env l = true) : l.sources env = [] := by
  simp only [skips, Bool.and_eq_true, beq_iff_eq, Bool.not_eq_true'] at h
  obtain ⟨rfl, hdrm⟩ := h
  show (if drmNeeded env = true then drmSources else []) = []
  rw [hdrm]; rfl

/-- What the label of a library does, skipped or not. -/
theorem buildLabel_eq (l : Lib) (sh : Shell) :
    buildLabel l sh =
      { sh with
        disk := sh.disk.put sh.cwd
          (asFiles (objects (l.flags sh.env) (l.sources sh.env) sh.clock))
        clock := sh.clock + ticks sh.env l
        log := sh.log ++ if skips sh.env l then [.notNeeded] else [] } := by
  by_cases h : skips sh.env l = true
  · have hlabel : l = .drm ∧ drmNeeded sh.env = false := by
      simpa [skips] using h
    rw [buildLabel, if_pos hlabel, ticks, if_pos h, if_pos h, sources_of_skips h]
    simp only [objects, asFiles, List.map_nil, Disk.put_nil]
    rfl
  · have hlabel : ¬ (l = .drm ∧ drmNeeded sh.env = false) := by
      simpa [skips] using h
    rw [buildLabel, if_neg hlabel, ticks, if_neg h, if_neg h, List.append_nil, objects,
      asFiles, List.map_map]
    rfl

theorem clean_objects {env : Env} {l : Lib} {flags : List Str} {t : ℕ} :
    ∀ w ∈ objects flags (l.sources env) t, cleanObject w.1 = true := by
  intro w hw
  obtain ⟨s, hs, rfl⟩ := List.mem_map.mp hw
  exact cleanObject_objectName (mem_allSources hs)

/-- The folder of a library, made anew and entered. -/
theorem enter_library (sh : Shell) {i : Str} {l : Lib} (hl : Lib.ofName i = some l)
    (hp : sh.disk.isDir sh.cwd = true) (hfree : sh.disk.file sh.cwd l.name = none) :
    ((if sh.isDir (i ++ ['\\']) then sh.rdBare i else sh).mkdirBare i).cd i =
      { sh with
        disk := sh.disk.renew sh.cwd (sh.cwd ++ [l.name])
        cwd := sh.cwd ++ [l.name] } := by
  have hplain := Lib.plainName_of_ofName hl
  have hrd : sh.rdBare i = sh.rd i := by rw [Shell.rdBare, if_neg (Lib.no_slash_of_ofName hl)]
  have hmkdir : ∀ sh : Shell, sh.mkdirBare i = sh.mkdir i := by
    intro sh
    rw [Shell.mkdirBare, if_neg (Lib.no_slash_of_ofName hl)]
  rw [hrd, hmkdir]
  apply enter_renewed
  · rw [resolve_plain _ hplain, Lib.fold_of_ofName hl]
  · rw [resolve_plain_sep _ hplain, Lib.fold_of_ofName hl]
  · rw [Disk.blocked_concat _ hp, hfree]; rfl
  · exact not_concat_prefix_self _ _

/-- The state in which the objects of a library are archived. -/
def compiledLibrary (i : Str) (l : Lib) (sh : Shell) : Shell :=
  { sh with
    cwd := sh.cwd ++ [l.name]
    disk := (sh.disk.renew sh.cwd (sh.cwd ++ [l.name])).put (sh.cwd ++ [l.name])
      (asFiles (objects (l.flags sh.env) (l.sources sh.env) sh.clock))
    clock := sh.clock + ticks sh.env l
    log := sh.log ++ libEvents sh.env i l }

theorem folder_compiledLibrary (i : Str) {l : Lib} {sh : Shell} (hp : sh.disk.isDir sh.cwd = true)
    (hfree : sh.disk.file sh.cwd l.name = none) :
    (compiledLibrary i l sh).disk.folder (sh.cwd ++ [l.name]) =
      some (objectFolder (objects (l.flags sh.env) (l.sources sh.env) sh.clock)) := by
  rw [compiledLibrary, folder_put_renew _ hp hfree (not_concat_prefix_self _ _), if_pos rfl]

/-- Whatever the interpreter, a library is compiled and then archived. -/
theorem buildLibrary_eq (cmd : Interpreter) {i : Str} {l : Lib} {sh : Shell}
    (hl : Lib.ofName i = some l) (hp : sh.disk.isDir sh.cwd = true)
    (hfree : sh.disk.file sh.cwd l.name = none) :
    buildLibrary cmd i sh =
      ((compiledLibrary i l sh).ar "..\\..\\libadeps.a"
        ((compiledLibrary i l sh).objectFiles cmd)).cd ".." := by
  have hlabel : callLabel i
      ((((if (sh.say (.building i)).isDir (i ++ ['\\']) then (sh.say (.building i)).rdBare i
        else sh.say (.building i)).mkdirBare i)).cd i) = compiledLibrary i l sh := by
    rw [enter_library (sh.say (.building i)) hl hp hfree, callLabel, hl]
    show buildLabel l _ = compiledLibrary i l sh
    rw [buildLabel_eq, compiledLibrary, libEvents]
    simp only [Shell.say, List.append_assoc, List.singleton_append]
    rfl
  rw [buildLibrary]
  simp only [hlabel]

/-- **One target.**  In a folder two levels below the repository, a library is built into a folder
of its own and archived; the script comes back to where it was. -/
theorem buildLibrary_spec (cmd : Interpreter) {i : Str} {l : Lib} {sh : Shell} {o : Path} {x : Str}
    (hl : Lib.ofName i = some l) (hcwd : sh.cwd = o ++ [x]) (hp : sh.disk.isDir sh.cwd = true)
    (hfree : sh.disk.file sh.cwd l.name = none)
    (har : archivable sh.disk (o ++ [depsName]) = true) :
    ∃ d, buildLibrary cmd i sh =
        { sh with
          disk := d
          clock := sh.clock + ticks sh.env l
          log := sh.log ++ libEvents sh.env i l } ∧
      Archived sh.disk d (sh.cwd ++ [l.name]) o depsName
        (objects (l.flags sh.env) (l.sources sh.env) sh.clock) := by
  set built := compiledLibrary i l sh with hbuilt
  have hpath : resolve built.cwd "..\\..\\libadeps.a".toList = o ++ [depsName] := by
    show resolve (sh.cwd ++ [l.name]) ("..\\..\\".toList ++ depsName) = o ++ [depsName]
    rw [resolve_upTwo, List.dropLast_concat, hcwd, List.dropLast_concat]
    rfl
  obtain ⟨d, hd, harch⟩ := ar_renewed cmd built sh.cwd rfl rfl hpath hp hfree
    (not_concat_prefix_self _ _) (by rw [hcwd]; exact List.prefix_append _ _)
    (by cases l <;> decide)
    har clean_objects
  refine ⟨d, ?_, harch⟩
  have hback : d.isDir sh.cwd = true := by
    have hne : sh.cwd ≠ o := by
      rw [hcwd]
      simp
    rw [Disk.isDir, harch.frame _ (not_concat_prefix_self _ _) hne]
    exact hp
  rw [buildLibrary_eq cmd hl hp hfree, hd, Shell.cd]
  simp only [Shell.isDir, resolve_up, hbuilt, compiledLibrary, List.dropLast_concat, hback, if_true]

/-! ### A run over targets -/

/-- The folder in the out folder that holds the objects of the libraries. -/
def libsName : Str := "libs"

/-- The libraries among the targets. -/
def libsOf (is : List Str) : List Lib := is.filterMap Lib.ofName

theorem libsOf_cons {i : Str} {l : Lib} (hl : Lib.ofName i = some l) (is : List Str) :
    libsOf (i :: is) = l :: libsOf is := by
  rw [libsOf, List.filterMap_cons, hl]
  rfl

/-- What a run over libraries adds to the archive, the first compiler call stamped `t`. -/
def libWrites (env : Env) : ℕ → List Lib → List (Str × Obj)
  | _, [] => []
  | t, l :: ls => objects (l.flags env) (l.sources env) t ++ libWrites env (t + ticks env l) ls

/-- The script stands in `libs` of the out folder `o` and nothing is in the way of the libraries:
their folders in the repository are there, no file has the name of a folder it will make, and the
archive can be written. -/
structure Ready (sh : Shell) (o : Path) (ls : List Lib) : Prop where
  cwd : sh.cwd = o ++ [libsName]
  dir : sh.disk.isDir sh.cwd = true
  free : ∀ l ∈ ls, sh.disk.file sh.cwd l.name = none
  archive : archivable sh.disk (o ++ [depsName]) = true
  present : ∀ l ∈ ls, sh.disk.isDir (o.dropLast ++ [l.name]) = true

/-- What a run over libraries changes, and that it changes nothing else. -/
structure LibrariesBuilt (sh sh' : Shell) (o : Path) (is : List Str) : Prop where
  env : sh'.env = sh.env
  cwd : sh'.cwd = sh.cwd
  sources : sh'.sources = sh.sources
  clock : sh.clock ≤ sh'.clock
  log : ∃ es, sh'.log = sh.log ++ es ∧ built es = is ∧ loads es = []
  frame : ∀ q, q ≠ o → (∀ l ∈ libsOf is, ¬ sh.cwd ++ [l.name] <+: q) →
    sh'.disk.folder q = sh.disk.folder q
  fresh : ∀ l ∈ libsOf is, ∃ t ≥ sh.clock, sh'.disk.folder (sh.cwd ++ [l.name]) =
    some (objectFolder (objects (l.flags sh.env) (l.sources sh.env) t))
  under : ∀ l ∈ libsOf is, ∀ q, sh.cwd ++ [l.name] <+: q → q ≠ sh.cwd ++ [l.name] →
    sh'.disk.folder q = none
  dir : sh'.disk.isDir o = sh.disk.isDir o
  files : ∀ n, n ≠ depsName → sh'.disk.file o n = sh.disk.file o n
  archive : is ≠ [] → ∃ a, sh'.disk.file o depsName = some (.archive a)
  holds : ∀ n, (members sh'.disk (o ++ [depsName])).lookup n =
    (lastWrite n (libWrites sh.env sh.clock (libsOf is))).or
      ((members sh.disk (o ++ [depsName])).lookup n)
  idle : is = [] → sh' = sh

theorem LibrariesBuilt.refl (sh : Shell) (o : Path) : LibrariesBuilt sh sh o [] where
  env := rfl
  cwd := rfl
  sources := rfl
  clock := le_rfl
  log := ⟨[], by simp, rfl, rfl⟩
  frame := fun _ _ _ => rfl
  fresh := fun l hl => absurd hl List.not_mem_nil
  under := fun l hl => absurd hl List.not_mem_nil
  dir := rfl
  files := fun _ _ => rfl
  archive := fun h => absurd rfl h
  holds := fun _ => rfl
  idle := fun _ => rfl

theorem Lib.name_inj {l l' : Lib} (h : l.name = l'.name) : l = l' := by
  have hsome : some l = some l' := by rw [← Lib.ofName_name l, h, Lib.ofName_name]
  exact Option.some.inj hsome

/-- Two folders of libraries, one of them at or above a path that lies at or under the other. -/
theorem lib_eq_of_below {p q : Path} {l l' : Lib} (h : p ++ [l.name] <+: q)
    (h' : p ++ [l'.name] <+: q) : l = l' := by
  have hlen : (p ++ [l.name]).length = (p ++ [l'.name]).length := by simp
  have heq := (List.prefix_of_prefix_length_le h h' hlen.le).eq_of_length hlen
  exact Lib.name_inj (List.singleton_inj.mp (List.append_cancel_left heq))

/-- What is reported for a library. -/
theorem built_libEvents (env : Env) (i : Str) (l : Lib) : built (libEvents env i l) = [i] := by
  unfold libEvents
  split <;> rfl

theorem loads_libEvents (env : Env) (i : Str) (l : Lib) : loads (libEvents env i l) = [] := by
  unfold libEvents
  split <;> rfl

section Step

variable {sh : Shell} {o : Path} {i : Str} {l : Lib} {d : Disk File} {is : List Str}

/-- The state after one target. -/
def afterLibrary (sh : Shell) (i : Str) (l : Lib) (d : Disk File) : Shell :=
  { sh with
    disk := d
    clock := sh.clock + ticks sh.env l
    log := sh.log ++ libEvents sh.env i l }

/-- After one target the script is ready for the others. -/
theorem Ready.step {ls : List Lib} (h : Ready sh o (l :: ls))
    (ha : Archived sh.disk d (sh.cwd ++ [l.name]) o depsName
      (objects (l.flags sh.env) (l.sources sh.env) sh.clock)) :
    Ready (afterLibrary sh i l d) o ls where
  cwd := h.cwd
  dir := (ha.isDir_frame (not_concat_prefix_self _ _)).trans h.dir
  free l' hl' := by
    have hne : sh.cwd ≠ o := by
      rw [h.cwd]
      simp
    exact (ha.file_frame (not_concat_prefix_self _ _) (Or.inl hne)).trans
      (h.free l' (List.mem_cons_of_mem l hl'))
  archive := by
    have hnot : ¬ sh.cwd ++ [l.name] <+: o ++ [depsName] := by
      intro hp
      have hlen := hp.length_le
      rw [h.cwd] at hlen
      simp only [List.length_append, List.length_singleton] at hlen
      omega
    have hdir : sh.disk.isDir o = true := by
      apply Disk.isDir_above _ h.dir
      rw [h.cwd]
      exact List.prefix_append _ _
    obtain ⟨a, hfile, _⟩ := ha.file_archive hdir
    have hold := h.archive
    simp only [archivable, Bool.and_eq_true] at hold ⊢
    refine ⟨?_, ?_⟩
    · show (!d.isDir (o ++ [depsName])) = true
      rw [ha.isDir_frame hnot]
      exact hold.1
    · show extendable (d.fileAt (o ++ [depsName])) = true
      rw [Disk.fileAt_concat, hfile]; rfl
  present l' hl' := by
    refine (ha.isDir_frame ?_).trans (h.present l' (List.mem_cons_of_mem l hl'))
    intro hp
    have hlen := hp.length_le
    rw [h.cwd] at hlen
    simp only [List.length_append, List.length_singleton, List.length_dropLast] at hlen
    omega

/-- One target and a run over the others. -/
theorem LibrariesBuilt.cons {sh' : Shell} (h : Ready sh o (l :: libsOf is))
    (hl : Lib.ofName i = some l)
    (ha : Archived sh.disk d (sh.cwd ++ [l.name]) o depsName
      (objects (l.flags sh.env) (l.sources sh.env) sh.clock))
    (hrest : LibrariesBuilt (afterLibrary sh i l d) sh' o is) :
    LibrariesBuilt sh sh' o (i :: is) := by
  have hlibs := libsOf_cons hl is
  have hdir : sh.disk.isDir o = true := by
    apply Disk.isDir_above _ h.dir
    rw [h.cwd]
    exact List.prefix_append _ _
  have hnot : ¬ sh.cwd ++ [l.name] <+: o := by
    intro hp
    have hlen := hp.length_le
    rw [h.cwd] at hlen
    simp only [List.length_append, List.length_singleton] at hlen
    omega
  have hno : ∀ l' : Lib, ∀ q, sh.cwd ++ [l'.name] <+: q → q ≠ o := by
    rintro l' q hq rfl
    have hlen := hq.length_le
    rw [h.cwd] at hlen
    simp only [List.length_append, List.length_singleton] at hlen
    omega
  -- a folder of this library that no later target replaces
  have hkept : l ∉ libsOf is → ∀ q, sh.cwd ++ [l.name] <+: q → sh'.disk.folder q = d.folder q := by
    intro hmem q hq
    apply hrest.frame q (hno l q hq)
    intro l' hl' hp
    exact hmem (lib_eq_of_below hq hp ▸ hl')
  obtain ⟨a, hfile, hlookup⟩ := ha.file_archive hdir
  refine ⟨hrest.env, hrest.cwd, hrest.sources, ?_, ?_, ?_, ?_, ?_, ?_, ?_, ?_, ?_, ?_⟩
  · exact (Nat.le_add_right _ _).trans hrest.clock
  · obtain ⟨es, hlog, hbuilt, hloads⟩ := hrest.log
    refine ⟨libEvents sh.env i l ++ es, ?_, ?_, ?_⟩
    · rw [hlog, ← List.append_assoc]; rfl
    · rw [built, List.filterMap_append, ← built, ← built, hbuilt, built_libEvents]; rfl
    · rw [loads, List.filterMap_append, ← loads, ← loads, hloads, loads_libEvents]; rfl
  · intro q hqo hq
    rw [hlibs] at hq
    rw [hrest.frame q hqo fun l' hl' => hq l' (List.mem_cons_of_mem l hl')]
    exact ha.frame q (hq l List.mem_cons_self) hqo
  · intro l' hl'
    by_cases hmem : l' ∈ libsOf is
    · obtain ⟨t, ht, hfresh⟩ := hrest.fresh l' hmem
      exact ⟨t, (Nat.le_add_right _ _).trans ht, hfresh⟩
    · rw [hlibs, List.mem_cons, or_iff_left hmem] at hl'
      subst hl'
      exact ⟨sh.clock, le_rfl, by rw [hkept hmem _ List.prefix_rfl, ha.fresh]⟩
  · intro l' hl' q hq hne
    by_cases hmem : l' ∈ libsOf is
    · exact hrest.under l' hmem q hq hne
    · rw [hlibs, List.mem_cons, or_iff_left hmem] at hl'
      subst hl'
      rw [hkept hmem q hq, ha.under q hq hne]
  · rw [hrest.dir]
    exact ha.isDir_frame hnot
  · intro n hn
    rw [hrest.files n hn]
    exact ha.file_frame hnot (Or.inr hn)
  · intro _
    by_cases hnil : is = []
    · rw [hrest.idle hnil]
      exact ⟨a, hfile⟩
    · exact hrest.archive hnil
  · intro n
    have hmembers : (members d (o ++ [depsName])).lookup n = a.lookup n := by
      rw [members, Disk.fileAt_concat, hfile]
    rw [hrest.holds n, hlibs, libWrites, lastWrite_append, Option.or_assoc, ← hlookup n,
      ← hmembers]
    rfl
  · intro hnil
    exact absurd hnil (List.cons_ne_nil i is)

end Step

/-- The loop at a target whose folder is there. -/
theorem buildLibraries_of_present (cmd : Interpreter) {i : Str} (is : List Str) {sh : Shell}
    (h : sh.isDir ("..\\..\\".toList ++ (i ++ ['\\'])) = true) :
    buildLibraries cmd (i :: is) sh = buildLibraries cmd is (buildLibrary cmd i sh) := by
  rw [buildLibraries, if_pos h]

/-- The loop at a target without a folder. -/
theorem buildLibraries_of_absent (cmd : Interpreter) {i : Str} (is : List Str) {sh : Shell}
    (h : sh.isDir ("..\\..\\".toList ++ (i ++ ['\\'])) = false) :
    buildLibraries cmd (i :: is) sh = sh.say (.invalidName i) := by
  rw [buildLibraries, h, if_neg Bool.false_ne_true]

/-- **A run over targets that are libraries** builds every one of them; the loop then goes on with
what follows. -/
theorem buildLibraries_spec (cmd : Interpreter) (o : Path) (is rest : List Str) (sh : Shell)
    (his : ∀ i ∈ is, (Lib.ofName i).isSome) (h : Ready sh o (libsOf is)) :
    ∃ sh', buildLibraries cmd (is ++ rest) sh = buildLibraries cmd rest sh' ∧
      LibrariesBuilt sh sh' o is := by
  induction is generalizing sh with
  | nil => exact ⟨sh, rfl, LibrariesBuilt.refl sh o⟩
  | cons i is ih =>
    obtain ⟨l, hl⟩ := Option.isSome_iff_exists.mp (his i List.mem_cons_self)
    rw [libsOf_cons hl] at h
    have hthere : sh.isDir ("..\\..\\".toList ++ (i ++ ['\\'])) = true := by
      rw [Shell.isDir, resolve_upTwo, h.cwd, List.dropLast_concat, segs_snoc_sep _ (by decide),
        segs_of_plain (Lib.plainName_of_ofName hl), Lib.fold_of_ofName hl]
      exact h.present l List.mem_cons_self
    obtain ⟨d, hd, ha⟩ := buildLibrary_spec cmd hl h.cwd h.dir (h.free l List.mem_cons_self) h.archive
    obtain ⟨sh', hrun, hbuilt⟩ := ih (afterLibrary sh i l d)
      (fun i' hi' => his i' (List.mem_cons_of_mem i hi')) (h.step ha)
    refine ⟨sh', ?_, hbuilt.cons h hl ha⟩
    rw [List.cons_append, buildLibraries_of_present cmd _ hthere, hd, ← hrun]; rfl

/-! ### The whole script -/

/-- `LIBAROMA_OUT` names one folder in the current one. -/
def OutNamed (env : Env) (o : Str) : Prop :=
  rooted (env.text "LIBAROMA_OUT") = false ∧ segs (env.text "LIBAROMA_OUT") = [.down o] ∧
    nameable (env.text "LIBAROMA_OUT") = true

instance (env : Env) (o : Str) : Decidable (OutNamed env o) := inferInstanceAs (Decidable (_ ∧ _))

theorem resolve_out {env : Env} {o : Str} (h : OutNamed env o) (cwd : Path) (s : Str) :
    resolve cwd (env.text "LIBAROMA_OUT" ++ '\\' :: s) = walk (cwd ++ [o]) (segs s) := by
  have hroot : rooted (env.text "LIBAROMA_OUT" ++ '\\' :: s) = false := by
    have hout := h.1
    cases hc : env.text "LIBAROMA_OUT" with
    | nil =>
      have hsegs := h.2.1
      rw [hc] at hsegs
      simp [segs, fields_nil] at hsegs
    | cons c cs =>
      rw [hc] at hout
      exact hout
  rw [resolve_of_not_rooted cwd hroot, segs_append_sep _ _ (by decide), h.2.1]; rfl

/-- Entering `libs` in the out folder, with no file in the way of it. -/
theorem enterLibs_eq {sh : Shell} {o : Str} (hout : OutNamed sh.env o)
    (hfree : sh.disk.blocked (sh.cwd ++ [o, libsName]) = false) :
    enterLibs sh =
      { sh with
        disk := sh.disk.mkdir (sh.cwd ++ [o, libsName])
        cwd := sh.cwd ++ [o, libsName] } := by
  have hpath : resolve sh.cwd (sh.env.text "LIBAROMA_OUT" ++ "\\libs".toList) =
      sh.cwd ++ [o, libsName] := by
    rw [show "\\libs".toList = '\\' :: "libs".toList from rfl, resolve_out hout]
    show (sh.cwd ++ [o]) ++ [libsName] = sh.cwd ++ [o, libsName]
    rw [List.append_assoc]; rfl
  have hpath' : resolve sh.cwd (sh.env.text "LIBAROMA_OUT" ++ "\\libs\\".toList) =
      sh.cwd ++ [o, libsName] := by
    rw [show "\\libs\\".toList = '\\' :: "libs\\".toList from rfl, resolve_out hout]
    show (sh.cwd ++ [o]) ++ [libsName] = sh.cwd ++ [o, libsName]
    rw [List.append_assoc]; rfl
  have hmade : (if sh.isDir (sh.env.text "LIBAROMA_OUT" ++ "\\libs\\".toList) then sh
      else sh.mkdir (sh.env.text "LIBAROMA_OUT" ++ "\\libs".toList)) =
      { sh with disk := sh.disk.mkdir (sh.cwd ++ [o, libsName]) } := by
    rw [Shell.isDir, hpath']
    split
    · rename_i hdir
      rw [Disk.mkdir_of_isDir hdir]
    · rw [Shell.mkdir, hpath]
  have hnew : (sh.disk.mkdir (sh.cwd ++ [o, libsName])).isDir (sh.cwd ++ [o, libsName]) = true := by
    rw [Disk.isDir_mkdir hfree, decide_eq_true List.prefix_rfl]; rfl
  rw [enterLibs]
  simp only [hmade, Shell.cd]
  simp only [Shell.isDir, hpath, hnew, if_true]

/-- What has to hold on the disk before the script enters `libs`, for the libraries it is going to
build: no file in the way of a folder it makes, an archive that can be written, and the folders of
the libraries in the repository. -/
structure LibsFit (d : Disk File) (r : Path) (o : Str) (ls : List Lib) : Prop where
  libs : d.blocked (r ++ [o, libsName]) = false
  free : ∀ l ∈ ls, d.file (r ++ [o, libsName]) l.name = none
  archive : archivable d (r ++ [o, depsName]) = true
  present : ∀ l ∈ ls, d.isDir (r ++ [l.name]) = true

theorem LibsFit.ready {sh : Shell} {o : Str} {ls : List Lib}
    (h : LibsFit sh.disk sh.cwd o ls) (hout : OutNamed sh.env o) :
    Ready (enterLibs sh) (sh.cwd ++ [o]) ls := by
  rw [enterLibs_eq hout h.libs]
  refine ⟨?_, ?_, ?_, ?_, ?_⟩
  · show sh.cwd ++ [o, libsName] = (sh.cwd ++ [o]) ++ [libsName]
    rw [List.append_assoc]; rfl
  · show (sh.disk.mkdir _).isDir _ = true
    rw [Disk.isDir_mkdir h.libs, decide_eq_true List.prefix_rfl]; rfl
  · intro l hl
    show (sh.disk.mkdir _).file _ _ = none
    rw [Disk.file_mkdir]
    exact h.free l hl
  · have harch := h.archive
    show archivable (sh.disk.mkdir (sh.cwd ++ [o, libsName])) ((sh.cwd ++ [o]) ++ [depsName]) = true
    rw [show sh.cwd ++ [o, depsName] = (sh.cwd ++ [o]) ++ [depsName] by simp] at harch
    simp only [archivable, Bool.and_eq_true] at harch ⊢
    rw [Disk.fileAt_concat, Disk.file_mkdir, ← Disk.fileAt_concat, Disk.isDir_mkdir h.libs]
    refine ⟨?_, harch.2⟩
    have hnot : ¬ (sh.cwd ++ [o]) ++ [depsName] <+: sh.cwd ++ [o, libsName] := by
      rw [show sh.cwd ++ [o, libsName] = (sh.cwd ++ [o]) ++ [libsName] by simp]
      intro hp
      have heq := hp.eq_of_length (by simp)
      have hname := List.singleton_inj.mp (List.append_cancel_left heq)
      exact absurd hname (by decide)
    rw [decide_eq_false hnot]
    exact harch.1
  · intro l hl
    show (sh.disk.mkdir _).isDir _ = true
    rw [List.dropLast_concat]
    exact Disk.isDir_mkdir_of_isDir _ (h.present l hl)

/-- Leaving `libs` and the script. -/
theorem leave_libs (cmd : Interpreter) (sh inner : Shell) {o x : Str}
    (hcwd : inner.cwd = sh.cwd ++ [o, x]) (hdir : inner.disk.isDir sh.cwd = true) :
    leave cmd sh (inner.cd "..\\..".toList) = { inner with env := sh.env, cwd := sh.cwd } := by
  have hback : resolve inner.cwd "..\\..".toList = sh.cwd := by
    rw [resolve_up_up, hcwd, show sh.cwd ++ [o, x] = (sh.cwd ++ [o]) ++ [x] by simp,
      List.dropLast_concat, List.dropLast_concat]
  rw [Shell.cd, Shell.isDir, hback, if_pos hdir, leave]
  simp only [ite_self]

theorem enterLibs_env (sh : Shell) : (enterLibs sh).env = sh.env := by
  rw [enterLibs]
  simp only [Shell.cd]
  split
  · split <;> rfl
  · split <;> rfl

/-- With the two settings it asks for, the script goes on to its targets. -/
theorem alibs_eq (cmd : Interpreter) (args : List Str) (sh : Shell)
    (hsource : (alibsSettings cmd args sh).env.text "LIBAROMA_SOURCE" ≠ [])
    (hplatform : (alibsSettings cmd args sh).env.text "LIBAROMA_PLATFORM" ≠ []) :
    alibs cmd args sh = leave cmd sh
      (buildTargets cmd (shiftConfig args (alibsSettings cmd args sh)).1
        (shiftConfig args (alibsSettings cmd args sh)).2) := by
  rw [alibs]
  simp only [if_neg hsource, if_neg hplatform]

/-! ### What is reported -/

theorem callLabel_log (i : Str) (sh : Shell) : ∃ es, (callLabel i sh).log = sh.log ++ es := by
  rw [callLabel]
  split
  · rename_i l _
    rw [buildLabel_eq]
    exact ⟨_, rfl⟩
  · split
    · exact ⟨[], by rw [Shell.log_cd, List.append_nil]⟩
    · exact ⟨[], by rw [List.append_nil]⟩

/-- Every target that is built is reported first, library or not. -/
theorem buildLibrary_log (cmd : Interpreter) (i : Str) (sh : Shell) :
    ∃ es, (buildLibrary cmd i sh).log = sh.log ++ .building i :: es := by
  have hrd : ∀ (sh : Shell) (s : Str), (sh.rdBare s).log = sh.log := by
    intro sh s
    rw [Shell.rdBare]
    split <;> rfl
  have hmkdir : ∀ (sh : Shell) (s : Str), (sh.mkdirBare s).log = sh.log := by
    intro sh s
    rw [Shell.mkdirBare]
    split <;> rfl
  set sh₁ := ((if (sh.say (.building i)).isDir (i ++ ['\\']) then (sh.say (.building i)).rdBare i
    else sh.say (.building i)).mkdirBare i).cd i with hsh₁
  have hlog₁ : sh₁.log = sh.log ++ [.building i] := by
    rw [hsh₁, Shell.log_cd, hmkdir]
    split
    · rw [hrd]; rfl
    · rfl
  obtain ⟨es, hes⟩ := callLabel_log i sh₁
  refine ⟨es, ?_⟩
  rw [buildLibrary]
  simp only [Shell.log_cd, Shell.log_ar]
  rw [← hsh₁, hes, hlog₁, List.append_assoc, List.singleton_append]

/-- What was reported before a run stays. -/
theorem buildLibraries_log (cmd : Interpreter) (is : List Str) (sh : Shell) :
    ∃ es, (buildLibraries cmd is sh).log = sh.log ++ es := by
  induction is generalizing sh with
  | nil => exact ⟨[], by rw [buildLibraries, List.append_nil]⟩
  | cons i is ih =>
    rw [buildLibraries]
    split
    · obtain ⟨es, hes⟩ := buildLibrary_log cmd i sh
      obtain ⟨es', hes'⟩ := ih (buildLibrary cmd i sh)
      exact ⟨.building i :: es ++ es', by rw [hes', hes, List.append_assoc]⟩
    · exact ⟨[.invalidName i], rfl⟩

/-! ### The folders after a run -/

/-- Whether a folder is there once the libraries in the folder `p` are built. -/
def presentThen (d : Disk File) (p : Path) (ls : List Lib) (q : Path) : Bool :=
  if ls.any fun l => decide (p ++ [l.name] <+: q) then ls.any fun l => decide (q = p ++ [l.name])
  else decide (q <+: p) || d.isDir q

/-- The folders after a run over libraries. -/
theorem LibrariesBuilt.isDir_eq (inner : Shell) {sh' : Shell} {o : Str} {is : List Str}
    (hout : OutNamed inner.env o)
    (hfree : inner.disk.blocked (inner.cwd ++ [o, libsName]) = false)
    (h : LibrariesBuilt (enterLibs inner) sh' (inner.cwd ++ [o]) is) (q : Path) :
    sh'.disk.isDir q =
      presentThen inner.disk (inner.cwd ++ [o, libsName]) (libsOf is) q := by
  have henter := enterLibs_eq hout hfree
  have hcwd : (enterLibs inner).cwd = inner.cwd ++ [o, libsName] := by rw [henter]
  have hdir : ∀ q, (enterLibs inner).disk.isDir q =
      (decide (q <+: inner.cwd ++ [o, libsName]) || inner.disk.isDir q) := by
    intro q
    rw [henter]
    exact Disk.isDir_mkdir hfree q
  rw [presentThen]
  by_cases hq : ∃ l ∈ libsOf is, inner.cwd ++ [o, libsName] ++ [l.name] <+: q
  · obtain ⟨l, hl, hlq⟩ := hq
    have hany : (libsOf is).any (fun l => decide (inner.cwd ++ [o, libsName] ++ [l.name] <+: q))
        = true := List.any_eq_true.mpr ⟨l, hl, decide_eq_true hlq⟩
    rw [if_pos hany]
    by_cases heq : q = inner.cwd ++ [o, libsName] ++ [l.name]
    · obtain ⟨t, _, hfresh⟩ := h.fresh l hl
      rw [hcwd] at hfresh
      have hany' : (libsOf is).any (fun l => decide (q = inner.cwd ++ [o, libsName] ++ [l.name]))
          = true := List.any_eq_true.mpr ⟨l, hl, decide_eq_true heq⟩
      rw [hany', heq, Disk.isDir, hfresh]; rfl
    · have hnone := h.under l hl q (by rw [hcwd]; exact hlq) (by rw [hcwd]; exact heq)
      have hany' : (libsOf is).any (fun l => decide (q = inner.cwd ++ [o, libsName] ++ [l.name]))
          = false := by
        rw [List.any_eq_false]
        intro l' _ hl'
        have hq' := of_decide_eq_true hl'
        have hll : l = l' := lib_eq_of_below hlq (hq' ▸ List.prefix_rfl)
        exact heq (hll ▸ hq')
      rw [hany', Disk.isDir, hnone]; rfl
  · have hany : (libsOf is).any (fun l => decide (inner.cwd ++ [o, libsName] ++ [l.name] <+: q))
        = false := by
      rw [List.any_eq_false]
      intro l hl hlq
      exact hq ⟨l, hl, of_decide_eq_true hlq⟩
    rw [hany, if_neg Bool.false_ne_true, ← hdir q]
    by_cases hqo : q = inner.cwd ++ [o]
    · rw [hqo, h.dir]
    · rw [Disk.isDir, h.frame q hqo]
      · rfl
      · intro l hl hlq
        rw [hcwd] at hlq
        exact hq ⟨l, hl, hlq⟩

end Atools
