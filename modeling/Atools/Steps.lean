import Atools.Batch.Run
import Atools.Repository

/-!
# Working in a repository

What happens to a repository between two looks at it: the libraries are built, all or some of them,
libaroma is built, a configuration file is edited, the libaroma sources change.  `StepFits` says what
a step has to be like: a proper invocation with settings whose out folder is one folder next to the
scripts.  `Effect` is all such a step can do (`runStep_effect`): it touches one out folder at most, and
the repository stays one (`Repository.step`).
-/

namespace Atools

open Batch

/-- What is done in a repository. -/
inductive Step
  | alibs (c : Option Token) (names : List Token)
  | abuild (c : Option Token)
  | edit (c : Option Token) (lines : List Line)
  | fetch (t : SourceTree)

/-- One step. -/
def runStep (cmd : Interpreter) : Step → Shell → Shell
  | .alibs c names, sh => alibs cmd (argList c names) sh
  | .abuild c, sh => abuild cmd (cfgArg c) sh
  | .edit c lines, sh =>
    { sh with disk := sh.disk.write (resolve sh.cwd (configName (cfgArg c))) (.text lines) }
  | .fetch t, sh => { sh with sources := t }

/-- Settings the scripts can work with, and if they are complete, with an out folder of its own name. -/
def SettingsFit (env : Env) : Prop := Usable env ∧ (complete env → ∃ o, OutNamed env o)

/-- Complete settings the scripts can work with, and their out folder. -/
structure FullSettings (env : Env) (o : Str) : Prop where
  complete : complete env
  usable : Usable env
  out : OutNamed env o

/-- A step that fits the state it is taken in. -/
def StepFits (cmd : Interpreter) : Step → Shell → Prop
  | .alibs c names, sh =>
    Invoked sh c names ∧ names.length ≤ 6 ∧ (∀ n ∈ names, (Lib.ofName n.text).isSome) ∧
      SettingsFit (alibsSettings cmd (argList c names) sh).env
  | .abuild c, sh => Invoked sh c [] ∧ SettingsFit (loadedEnv cmd c sh)
  | .edit c _, _ => ∃ n, segs (configName (cfgArg c)) = [.down n]
  | .fetch _, _ => True

/-! ### Scripts that stop for want of settings -/

theorem alibs_of_incomplete (cmd : Interpreter) (args : List Str) (sh : Shell)
    (h : ¬ complete (alibsSettings cmd args sh).env) :
    alibs cmd args sh = leave cmd sh (alibsSettings cmd args sh) := by
  rw [alibs]
  by_cases hsource : (alibsSettings cmd args sh).env.text "LIBAROMA_SOURCE" = []
  · rw [if_pos hsource]
  · have hplatform : (alibsSettings cmd args sh).env.text "LIBAROMA_PLATFORM" = [] := by
      by_contra hplatform
      exact h ⟨hsource, hplatform⟩
    rw [if_neg hsource, if_pos hplatform]

theorem alibs_incomplete (cmd : Interpreter) (args : List Str) (sh : Shell)
    (h : ¬ complete (alibsSettings cmd args sh).env) :
    ∃ es, alibs cmd args sh = { sh with log := sh.log ++ es } := by
  obtain ⟨env, es, heq, _⟩ := alibsSettings_eq cmd args sh
  refine ⟨es, ?_⟩
  rw [alibs_of_incomplete cmd args sh h, heq, leave]
  simp only [ite_self]

theorem abuild_of_incomplete (cmd : Interpreter) (c : Option Token) (sh : Shell)
    (h : ¬ complete (loadedEnv cmd c sh)) :
    abuild cmd (cfgArg c) sh = leave cmd sh (setldr cmd (cfgArg c) sh) := by
  obtain ⟨es, heq, _⟩ := setldr_eq cmd (cfgArg c) sh
  have henv : (setldr cmd (cfgArg c) sh).env = loadedEnv cmd c sh := by rw [heq]; rfl
  rw [abuild, henv]
  by_cases hsource : (loadedEnv cmd c sh).text "LIBAROMA_SOURCE" = []
  · rw [if_pos hsource]
  · have hplatform : (loadedEnv cmd c sh).text "LIBAROMA_PLATFORM" = [] := by
      by_contra hplatform
      exact h ⟨hsource, hplatform⟩
    rw [if_neg hsource, if_pos hplatform]

theorem abuild_incomplete (cmd : Interpreter) (c : Option Token) (sh : Shell)
    (h : ¬ complete (loadedEnv cmd c sh)) :
    ∃ es, abuild cmd (cfgArg c) sh = { sh with log := sh.log ++ es } := by
  obtain ⟨es, heq, _⟩ := setldr_eq cmd (cfgArg c) sh
  refine ⟨es, ?_⟩
  rw [abuild_of_incomplete cmd c sh h, heq, leave]
  simp only [ite_self]

/-! ### What a step leaves alone -/

/-- An out folder is as it was. -/
structure Unchanged (d d' : Disk File) (r : Path) (o : Str) : Prop where
  self : d'.file r o = d.file r o
  below : ∀ q, r ++ [o] <+: q → d'.folder q = d.folder q

theorem Unchanged.file {d d' : Disk File} {r : Path} {o : Str} (h : Unchanged d d' r o) {q : Path}
    (hq : r ++ [o] <+: q) (n : Str) : d'.file q n = d.file q n := by
  rw [Disk.file, h.below q hq]; rfl

theorem Unchanged.outFolder {d d' : Disk File} {r : Path} {o : Str} (h : Unchanged d d' r o)
    (hout : OutFolder d (r ++ [o])) : OutFolder d' (r ++ [o]) := by
  have harch : ∀ n, archivable d (r ++ [o] ++ [n]) = true →
      archivable d' (r ++ [o] ++ [n]) = true := by
    intro n hn
    rw [archivable, Bool.and_eq_true] at hn ⊢
    rw [Disk.isDir, h.below _ (List.prefix_append _ _), Disk.fileAt_concat,
      h.file List.prefix_rfl, ← Disk.fileAt_concat]
    exact hn
  refine ⟨?_, ?_, ?_, ?_, harch _ hout.deps, harch _ hout.libaroma⟩
  · rw [Disk.fileAt_concat, h.self, ← Disk.fileAt_concat]
    exact hout.folder
  · rw [h.file List.prefix_rfl]
    exact hout.libs
  · rw [h.file List.prefix_rfl]
    exact hout.aroma
  · intro n
    rw [h.file (List.prefix_append _ _)]
    exact hout.inLibs n

/-- What happens inside one out folder leaves the others alone. -/
theorem unchanged_of_frame {d d' : Disk File} {r : Path} {o o' : Str}
    (hframe : ∀ q, ¬ r ++ [o] <+: q → d'.folder q = d.folder q) (hne : o' ≠ o) :
    Unchanged d d' r o' where
  self := by
    rw [Disk.file, hframe r (not_concat_prefix_self r o)]; rfl
  below q hq := by
    apply hframe
    intro hq'
    have hlen : (r ++ [o']).length = (r ++ [o]).length := by simp
    have hsame := (List.prefix_of_prefix_length_le hq hq' hlen.le).eq_of_length hlen
    exact hne (List.singleton_inj.mp (List.append_cancel_left hsame))

/-- Every configuration file name starts alike. -/
theorem configName_start (arg : Str) : ∃ s, configName arg = "config".toList ++ s := by
  rw [configName]
  split
  · exact ⟨".txt".toList, rfl⟩
  · exact ⟨'-' :: arg ++ ".txt".toList, by rw [List.append_assoc]; rfl⟩

/-- A text that starts like a configuration file name and names one file. -/
theorem resolve_config (r : Path) {s n : Str} (hn : segs ("config".toList ++ s) = [.down n]) :
    resolve r ("config".toList ++ s) = r ++ [n] ∧ ¬ outFolderName n := by
  refine ⟨by rw [resolve_of_not_rooted _ rfl, hn]; rfl, ?_⟩
  obtain ⟨t, ht⟩ := prefix_of_segs (show plainName "config".toList = true by decide) hn
  rintro ⟨t', ht'⟩
  rw [show fold "config".toList = "config".toList by decide] at ht
  have hhead := congrArg List.head? (ht.trans ht'.symm)
  exact absurd hhead (by simp)

/-- Where a configuration file lies. -/
theorem resolve_configName (r : Path) {arg n : Str} (hn : segs (configName arg) = [.down n]) :
    resolve r (configName arg) = r ++ [n] ∧ ¬ outFolderName n := by
  obtain ⟨s, hs⟩ := configName_start arg
  rw [hs] at hn ⊢
  exact resolve_config r hn

/-- An edit of a configuration file leaves all out folders alone. -/
theorem unchanged_of_edit (d : Disk File) (r : Path) {n o : Str} (hn : ¬ outFolderName n)
    (ho : outFolderName o) (x : File) : Unchanged d (d.write (r ++ [n]) x) r o where
  self := by
    have hne : o ≠ n := by
      rintro rfl
      exact hn ho
    rw [Disk.write_concat, Disk.file, Disk.folder_put, if_pos rfl, Disk.file]
    cases d.folder r with
    | none => rfl
    | some f =>
      show (writeAll f _).lookup o = f.lookup o
      rw [lookup_writeAll, lastWrite_eq_none_iff.mpr, Option.none_or]
      intro w hw
      rw [List.mem_singleton.mp (List.mem_of_mem_filter hw)]
      exact hne.symm
  below q hq := by
    rw [Disk.write_concat, Disk.folder_put_ne]
    rintro rfl
    exact not_concat_prefix_self _ _ hq

/-! ### What a step does -/

/-- All that a fitting step can do. -/
inductive Effect (cmd : Interpreter) (r : Path) (sh : Shell) : Step → Shell → Prop
  | alibsStopped (c : Option Token) (names : List Token) (es : List Event) :
      ¬ complete (alibsSettings cmd (argList c names) sh).env →
      Effect cmd r sh (.alibs c names) { sh with log := sh.log ++ es }
  | alibsBuilt (c : Option Token) (names : List Token) (o : Str) (d : Disk File) (clock : ℕ)
      (es : List Event) :
      complete (alibsSettings cmd (argList c names) sh).env →
      OutNamed (alibsSettings cmd (argList c names) sh).env o → outFolderName o →
      sh.clock ≤ clock →
      DepsChange sh.disk d r o (libWrites (alibsEnv cmd (argList c names) sh) sh.clock
        (libsOf (targetLibs (alibsEnv cmd (argList c names) sh) (names.map Token.text)))) →
      Effect cmd r sh (.alibs c names)
        { sh with disk := d, clock := clock, log := sh.log ++ es }
  | abuildStopped (c : Option Token) (es : List Event) :
      ¬ complete (loadedEnv cmd c sh) →
      Effect cmd r sh (.abuild c) { sh with log := sh.log ++ es }
  | abuildBuilt (c : Option Token) (o : Str) (d₁ d : Disk File) (clock : ℕ) (es : List Event)
      (ls : List (Path × Env)) :
      complete (loadedEnv cmd c sh) → OutNamed (loadedEnv cmd c sh) o → outFolderName o →
      sh.clock ≤ clock →
      DepsReady (configLines sh (cfgArg c)) (loadedEnv cmd c sh) sh.disk d₁ r o sh.clock ls →
      AromaChange d₁ d r o →
      ((∀ s ∈ aromaSources cmd (loadedEnv cmd c sh) sh.sources,
          cleanObject (objectName s) = true) →
        Archived d₁ d (r ++ [o] ++ [aromaName]) (r ++ [o]) libaromaName
          (objects (aromaFlags (loadedEnv cmd c sh))
            (aromaSources cmd (loadedEnv cmd c sh) sh.sources) clock)) →
      Effect cmd r sh (.abuild c)
        { sh with disk := d, clock := clock + 1, log := sh.log ++ es }
  | edited (c : Option Token) (lines : List Line) (n : Str) : ¬ outFolderName n →
      Effect cmd r sh (.edit c lines) { sh with disk := sh.disk.write (r ++ [n]) (.text lines) }
  | fetched (t : SourceTree) : Effect cmd r sh (.fetch t) { sh with sources := t }

variable {cmd : Interpreter} {r : Path} {e : Env} {sh sh' : Shell} {a : Step}

theorem runStep_effect (h : Repository r e sh) (hfit : StepFits cmd a sh) :
    Effect cmd r sh a (runStep cmd a sh) := by
  cases a with
  | alibs c names =>
    obtain ⟨hinv, _, hnames, _, hout⟩ := hfit
    rw [runStep]
    by_cases hcomplete : complete (alibsSettings cmd (argList c names) sh).env
    · obtain ⟨o, ho⟩ := hout hcomplete
      obtain ⟨d, clock, es, heq, hclock, _, hchange⟩ :=
        alibs_builds cmd h hinv hnames hcomplete ho
      rw [heq]
      exact .alibsBuilt c names o d clock es hcomplete ho (outFolderName_of_alibs hcomplete ho)
        hclock hchange
    · obtain ⟨es, heq⟩ := alibs_incomplete cmd _ sh hcomplete
      rw [heq]
      exact .alibsStopped c names es hcomplete
  | abuild c =>
    obtain ⟨hinv, _, hout⟩ := hfit
    rw [runStep]
    by_cases hcomplete : complete (loadedEnv cmd c sh)
    · obtain ⟨o, ho⟩ := hout hcomplete
      obtain ⟨d₁, d, clock, es, ls, heq, hclock, _, hready, _, hchange, harch⟩ :=
        abuild_builds cmd h hinv hcomplete ho
      rw [heq]
      exact .abuildBuilt c o d₁ d clock es ls hcomplete ho (outFolderName_of_load hcomplete ho)
        hclock hready hchange harch
    · obtain ⟨es, heq⟩ := abuild_incomplete cmd c sh hcomplete
      rw [heq]
      exact .abuildStopped c es hcomplete
  | edit c lines =>
    obtain ⟨n, hn⟩ := hfit
    obtain ⟨hpath, hno⟩ := resolve_configName r hn
    rw [← h.cwd] at hpath
    have hdisk : runStep cmd (.edit c lines) sh =
        { sh with disk := sh.disk.write (r ++ [n]) (.text lines) } := by rw [runStep, hpath, h.cwd]
    rw [hdisk]
    exact .edited c lines n hno
  | fetch t => exact .fetched t

/-! ### A repository stays one -/

/-- A repository in which nothing has been built: no out folder is there. -/
structure Fresh (r : Path) (e : Env) (sh : Shell) : Prop where
  cwd : sh.cwd = r
  env : sh.env = e
  home : sh.disk.isDir r = true
  libs : ∀ l : Lib, sh.disk.isDir (r ++ [l.name]) = true
  noFolder : ∀ o, outFolderName o → sh.disk.isDir (r ++ [o]) = false
  noFile : ∀ o, outFolderName o → sh.disk.file r o = none

theorem Fresh.repository (h : Fresh r e sh) : Repository r e sh where
  cwd := h.cwd
  env := h.env
  home := h.home
  libs := h.libs
  outs o ho := by
    refine OutFolder.of_absent ?_ (h.noFolder o ho)
    rw [Disk.fileAt_concat]
    exact h.noFile o ho

/-- In a fresh repository no out folder holds anything. -/
theorem Fresh.file (h : Fresh r e sh) {o : Str} (ho : outFolderName o) (n : Str) :
    sh.disk.file (r ++ [o]) n = none := by
  rw [Disk.file, Disk.folder_eq_none List.prefix_rfl (h.noFolder o ho)]; rfl

/-- A change inside one out folder. -/
theorem Repository.change {o : Str} (h : Repository r e sh) (ho : outFolderName o)
    (hcwd : sh'.cwd = sh.cwd) (henv : sh'.env = sh.env)
    (hframe : ∀ q, ¬ r ++ [o] <+: q → sh'.disk.folder q = sh.disk.folder q)
    (hout : OutFolder sh'.disk (r ++ [o])) : Repository r e sh' where
  cwd := hcwd.trans h.cwd
  env := henv.trans h.env
  home := by
    rw [Disk.isDir, hframe r (not_concat_prefix_self r o)]
    exact h.home
  libs l := by
    have hnot : ¬ r ++ [o] <+: r ++ [l.name] := by
      intro hp
      have heq := hp.eq_of_length (by simp)
      exact ne_of_outFolderName ho l (List.singleton_inj.mp (List.append_cancel_left heq))
    rw [Disk.isDir, hframe _ hnot]
    exact h.libs l
  outs o' ho' := by
    by_cases heq : o' = o
    · rw [heq]
      exact hout
    · exact (unchanged_of_frame hframe heq).outFolder (h.outs o' ho')

theorem Repository.effect (h : Repository r e sh) (he : Effect cmd r sh a sh') :
    Repository r e sh' := by
  cases he with
  | alibsStopped | abuildStopped | fetched => exact ⟨h.cwd, h.env, h.home, h.libs, h.outs⟩
  | alibsBuilt c names o d clock es _ _ ho _ hchange =>
    exact h.change ho rfl rfl hchange.frame hchange.out
  | abuildBuilt c o d₁ d clock es ls _ _ ho _ hready hchange =>
    refine h.change ho rfl rfl ?_ hchange.out
    intro q hq
    exact (hchange.frame q hq).trans (hready.frame hq)
  | edited c lines n hn =>
    have hdir : ∀ q, (sh.disk.write (r ++ [n]) (.text lines)).isDir q = sh.disk.isDir q :=
      fun q => Disk.isDir_write _ _ q _
    exact ⟨h.cwd, h.env, (hdir r).trans h.home, fun l => (hdir _).trans (h.libs l),
      fun o ho => (unchanged_of_edit _ _ hn ho _).outFolder (h.outs o ho)⟩

/-- **A fitting step** leaves a repository. -/
theorem Repository.step (h : Repository r e sh) (hfit : StepFits cmd a sh) :
    Repository r e (runStep cmd a sh) := h.effect (runStep_effect h hfit)

/-! ### Configurations between edits -/

/-- What is not an edit leaves the files next to the scripts alone. -/
theorem Effect.home (he : Effect cmd r sh a sh') (hedit : ∀ c lines, a ≠ .edit c lines) :
    sh'.cwd = sh.cwd ∧ sh'.env = sh.env ∧ sh'.disk.folder r = sh.disk.folder r := by
  cases he with
  | alibsStopped | abuildStopped | fetched => exact ⟨rfl, rfl, rfl⟩
  | alibsBuilt c names o d clock es _ _ _ _ hchange =>
    exact ⟨rfl, rfl, hchange.frame r (not_concat_prefix_self r o)⟩
  | abuildBuilt c o d₁ d clock es ls _ _ _ _ hready hchange =>
    have hnot := not_concat_prefix_self r o
    exact ⟨rfl, rfl, (hchange.frame r hnot).trans (hready.frame hnot)⟩
  | edited c lines => exact absurd rfl (hedit c lines)

/-- What fetches nothing leaves the sources alone. -/
theorem Effect.sources (he : Effect cmd r sh a sh') (hfetch : ∀ t, a ≠ .fetch t) :
    sh'.sources = sh.sources := by
  cases he with
  | fetched t => exact absurd rfl (hfetch t)
  | alibsStopped | abuildStopped | alibsBuilt | abuildBuilt | edited => rfl

theorem configLines_congr {arg n : Str} (hn : segs (configName arg) = [.down n])
    (hcwd : sh.cwd = r) (hcwd' : sh'.cwd = r) (hdisk : sh'.disk.folder r = sh.disk.folder r) :
    configLines sh' arg = configLines sh arg := by
  obtain ⟨hpath, _⟩ := resolve_configName r hn
  rw [configLines, configLines, hcwd, hcwd', hpath, Disk.fileAt_concat, Disk.fileAt_concat,
    Disk.file, hdisk]
  rfl

/-- After an edit the new lines are what is read. -/
theorem configLines_edit (h : Repository r e sh) {c : Option Token} {n : Str} (lines : List Line)
    (hn : segs (configName (cfgArg c)) = [.down n]) (hfile : (sh.disk.file r n).isSome) :
    configLines (runStep cmd (.edit c lines) sh) (cfgArg c) = lines := by
  obtain ⟨hpath, _⟩ := resolve_configName r hn
  have hdir : sh.disk.isDir (r ++ [n]) = false := by
    rw [← Bool.not_eq_true]
    intro hdir
    have hnone := Disk.fileAt_of_isDir hdir
    rw [Disk.fileAt_concat] at hnone
    rw [hnone] at hfile
    exact Bool.false_ne_true hfile
  obtain ⟨f, hf⟩ := Option.isSome_iff_exists.mp h.home
  have hafter : (sh.disk.write (r ++ [n]) (.text lines)).file r n = some (.text lines) := by
    rw [Disk.write_concat, Disk.file, Disk.folder_put_self hf]
    · show (writeAll f [(n, .text lines)]).lookup n = _
      rw [lookup_writeAll, lastWrite_singleton, if_pos rfl]; rfl
    · intro w hw
      rw [List.mem_singleton.mp hw]
      exact hdir
  rw [configLines, runStep]
  simp only [h.cwd, hpath, Disk.fileAt_concat, hafter]

/-- Between edits abuild.cmd without a configuration name means the same. -/
theorem StepFits.kept (h : StepFits cmd (.abuild none) sh) (hrepo : Repository r e sh)
    (he : Effect cmd r sh a sh') (hedit : ∀ c lines, a ≠ .edit c lines) :
    StepFits cmd (.abuild none) sh' ∧ loadedEnv cmd none sh' = loadedEnv cmd none sh := by
  obtain ⟨hcwd, henv, hdisk⟩ := he.home hedit
  have hlines : configLines sh' [] = configLines sh [] :=
    configLines_congr rfl hrepo.cwd (hcwd.trans hrepo.cwd) hdisk
  have hloaded : loadedEnv cmd none sh' = loadedEnv cmd none sh := by
    rw [loadedEnv, loadedEnv, cfgArg_none, hlines, henv]
  refine ⟨⟨invoked_plain ?_, ?_⟩, hloaded⟩
  · rw [hlines]
    exact h.1.switches
  · rw [hloaded]
    exact h.2

/-! ### A repository to start from -/

/-- A drive with folders for libraries in the folder `r`. -/
def libFolders (r : Path) : List Lib → Disk File
  | [] => Disk.root File
  | l :: ls => (libFolders r ls).mkdir (r ++ [l.name])

theorem file_libFolders (r : Path) (ls : List Lib) (q : Path) (n : Str) :
    (libFolders r ls).file q n = none := by
  induction ls with
  | nil =>
    show (if q = [] then some ∅ else none).bind _ = none
    split <;> rfl
  | cons l ls ih => rw [libFolders, Disk.file_mkdir, ih]

theorem isDir_libFolders (r : Path) (ls : List Lib) (q : Path) :
    (libFolders r ls).isDir q = (decide (q = []) || ls.any fun l => decide (q <+: r ++ [l.name])) := by
  induction ls with
  | nil =>
    rw [libFolders, Disk.isDir, Disk.root, List.any_nil, Bool.or_false]
    show (if q = [] then some ∅ else none : Option (AList fun _ : Str => File)).isSome = _
    by_cases hq : q = []
    · rw [if_pos hq, decide_eq_true hq]; rfl
    · rw [if_neg hq, decide_eq_false hq]; rfl
  | cons l ls ih =>
    have hfree : (libFolders r ls).blocked (r ++ [l.name]) = false := by
      rw [Disk.blocked_eq_false_iff]
      intro p _
      rw [Disk.fileAt]
      cases p.getLast? with
      | none => rfl
      | some n => exact file_libFolders r ls _ n
    rw [libFolders, Disk.isDir_mkdir hfree, ih, List.any_cons, Bool.or_left_comm]

/-- A configuration with the two settings that must be there, a compiler and an archiver. -/
def smallConfig : List Line :=
  [⟨"LIBAROMA_SOURCE=D:\\projects\\libaroma".toList, by decide⟩,
    ⟨"LIBAROMA_PLATFORM=sdl".toList, by decide⟩, ⟨"LIBAROMA_GCC=gcc.exe".toList, by decide⟩,
    ⟨"LIBAROMA_AR=ar.exe".toList, by decide⟩]

/-- A source tree with one file. -/
def smallTree : SourceTree where
  files folder := if folder = "D:\\projects\\libaroma\\src".toList then ["aroma.c".toList] else []
  plain folder n hn := by
    split at hn
    · rw [List.mem_singleton.mp hn]
      decide
    · exact absurd hn List.not_mem_nil

/-- A repository with all library folders and some files next to the scripts. -/
def freshRepository (r : Path) (files : List (Str × File)) (sources : SourceTree) : Shell where
  env _ := none
  cwd := r
  disk := (libFolders r Lib.all).put r files
  log := []
  clock := 0
  sources := sources

theorem fresh_freshRepository (r : Path) {files : List (Str × File)} (sources : SourceTree)
    (hfiles : ∀ w ∈ files, ¬ outFolderName w.1) :
    Fresh r (fun _ => none) (freshRepository r files sources) := by
  have hdir : ∀ q, (freshRepository r files sources).disk.isDir q =
      (decide (q = []) || Lib.all.any fun l => decide (q <+: r ++ [l.name])) :=
    fun q => (Disk.isDir_put _ _ q _).trans (isDir_libFolders r Lib.all q)
  have hlib : ∀ q (l : Lib), q <+: r ++ [l.name] →
      (freshRepository r files sources).disk.isDir q = true := by
    intro q l hq
    rw [hdir, Bool.or_eq_true]
    exact Or.inr (List.any_eq_true.mpr ⟨l, l.mem_all, decide_eq_true hq⟩)
  refine ⟨rfl, rfl, hlib r .zlib (List.prefix_append _ _), fun l => hlib _ l List.prefix_rfl, ?_, ?_⟩
  · intro o ho
    rw [hdir, decide_eq_false (by simp), Bool.false_or, List.any_eq_false]
    intro l _ hl
    have heq := (of_decide_eq_true hl).eq_of_length (by simp)
    exact ne_of_outFolderName ho l (List.singleton_inj.mp (List.append_cancel_left heq))
  · intro o ho
    show ((libFolders r Lib.all).put r files).file r o = none
    rw [Disk.file, Disk.folder_put, if_pos rfl]
    have hold := file_libFolders r Lib.all r o
    rw [Disk.file] at hold
    cases hf : (libFolders r Lib.all).folder r with
    | none => rfl
    | some f =>
      rw [hf] at hold
      show (writeAll f _).lookup o = none
      rw [lookup_writeAll, lastWrite_eq_none_iff.mpr, Option.none_or]
      · exact hold
      · intro w hw heq
        exact hfiles w (List.mem_of_mem_filter hw) (heq ▸ ho)

end Atools
