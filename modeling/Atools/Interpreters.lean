import Atools.Session

/-!
# Any interpreter will do

What `set /a` and `set /p` do, what is left of a text with special characters and whether leaving a
script puts the current folder back is up to an `Interpreter`.  As long as no configuration file
hands `set` a switch and abuild.cmd meets clean names only, none of it can be observed: two
interpreters take a session through the same states (`session_interpreters`).
-/

namespace Atools

open Batch

/-! ### Settings -/

section Settings

variable (cmd cmd' : Interpreter)

theorem setldr_interp {arg : Str} {sh : Shell}
    (hlines : ∀ l ∈ configLines sh arg, handsSwitch l.text = false) :
    setldr cmd' arg sh = setldr cmd arg sh := by
  rw [setldr, setldr, loadSettings_interp cmd cmd' arg sh.env hlines]

theorem alibsSettings_interp {args : List Str} {sh : Shell}
    (hlines : ∀ l ∈ configLines sh (alibsArg args sh), handsSwitch l.text = false) :
    alibsSettings cmd' args sh = alibsSettings cmd args sh := by
  rw [alibsSettings_setldr, alibsSettings_setldr]
  exact setldr_interp cmd cmd' hlines

end Settings

/-- A script that comes back to the same folder under both interpreters leaves the same state. -/
theorem leave_interp {cmd cmd' : Interpreter} {outer inner : Shell}
    (h : (leave cmd' outer inner).cwd = (leave cmd outer inner).cwd) :
    leave cmd' outer inner = leave cmd outer inner :=
  congrArg (fun p => { inner with env := outer.env, cwd := p }) h

/-! ### Building -/

section Building

variable (cmd cmd' : Interpreter) {r : Path} {e : Env} {sh : Shell} {c : Option Token} {o : Str}

/-- Clean objects are listed alike. -/
theorem objectFiles_interp {ws : List (Str × Obj)}
    (hfolder : sh.disk.folder sh.cwd = some (objectFolder ws))
    (hclean : ∀ w ∈ ws, cleanObject w.1 = true) :
    sh.objectFiles cmd' = sh.objectFiles cmd := by
  have hnames : ∀ n ∈ objectFolder ws, cleanObject n = true := by
    intro n hn
    obtain ⟨x, hx⟩ := mem_objectFolder.mp hn
    exact hclean _ hx
  rw [Shell.objectFiles_of_clean cmd hfolder hnames, Shell.objectFiles_of_clean cmd' hfolder hnames]

theorem buildLibrary_interp {i : Str} {l : Lib} (hl : Lib.ofName i = some l)
    (hp : sh.disk.isDir sh.cwd = true) (hfree : sh.disk.file sh.cwd l.name = none) :
    buildLibrary cmd' i sh = buildLibrary cmd i sh := by
  have hobjects := objectFiles_interp cmd cmd' (folder_compiledLibrary i hp hfree) clean_objects
  rw [buildLibrary_eq cmd' hl hp hfree, buildLibrary_eq cmd hl hp hfree, hobjects]

theorem buildLibraries_interp {q : Path} {is : List Str} (his : ∀ i ∈ is, (Lib.ofName i).isSome)
    (h : Ready sh q (libsOf is)) : buildLibraries cmd' is sh = buildLibraries cmd is sh := by
  induction is generalizing sh with
  | nil => rfl
  | cons i is ih =>
    obtain ⟨l, hl⟩ := Option.isSome_iff_exists.mp (his i List.mem_cons_self)
    rw [libsOf_cons hl] at h
    have hfree := h.free l List.mem_cons_self
    obtain ⟨d, hd, ha⟩ := buildLibrary_spec cmd hl h.cwd h.dir hfree h.archive
    have hrest : buildLibraries cmd' is (afterLibrary sh i l d) =
        buildLibraries cmd is (afterLibrary sh i l d) :=
      ih (fun i' hi' => his i' (List.mem_cons_of_mem i hi')) (h.step ha)
    rw [buildLibraries, buildLibraries, buildLibrary_interp cmd cmd' hl h.dir hfree, hd]
    split
    · exact hrest
    · rfl

/-- **alibs.cmd** under two interpreters. -/
theorem alibs_interp {names : List Token} (h : Repository r e sh)
    (hfit : StepFits cmd (.alibs c names) sh) :
    StepFits cmd' (.alibs c names) sh ∧
      alibs cmd' (argList c names) sh = alibs cmd (argList c names) sh := by
  have hplain := hfit
  obtain ⟨hinv, hlength, hnames, hfolder⟩ := hfit
  have hset : alibsSettings cmd' (argList c names) sh = alibsSettings cmd (argList c names) sh := by
    apply alibsSettings_interp
    rw [hinv.alibsArg]
    exact hinv.switches
  have hfit' : StepFits cmd' (.alibs c names) sh := by
    refine ⟨hinv, hlength, hnames, ?_⟩
    rw [hset]
    exact hfolder
  -- both come back to the repository
  have hcwd : (alibs cmd' (argList c names) sh).cwd = (alibs cmd (argList c names) sh).cwd :=
    (h.step hfit').cwd.trans (h.step hplain).cwd.symm
  refine ⟨hfit', ?_⟩
  by_cases hcomplete : complete (alibsSettings cmd (argList c names) sh).env
  · obtain ⟨o, hout⟩ := hfolder.2 hcomplete
    obtain ⟨es, hshift, _⟩ := alibs_invoked cmd hinv
    have hcomplete' : complete (alibsSettings cmd' (argList c names) sh).env := by
      rw [hset]
      exact hcomplete
    rw [alibs_eq cmd' _ sh hcomplete'.1 hcomplete'.2, alibs_eq cmd _ sh hcomplete.1 hcomplete.2,
      hset, hshift, buildTargets, buildTargets] at hcwd ⊢
    set inner : Shell :=
      { sh with env := alibsEnv cmd (argList c names) sh, log := sh.log ++ es } with hinner
    have hout' : OutNamed inner.env o := alibsEnv_out hout
    have hlibs : LibsFit inner.disk inner.cwd o
        (libsOf (targetLibs inner.env (names.map Token.text))) := by
      rw [show inner.cwd = r from h.cwd]
      exact h.libsFit (outFolderName_of_alibs hcomplete hout) _
    have hbuild := buildLibraries_interp cmd cmd' (targetLibs_known inner.env hnames)
      (hlibs.ready hout')
    simp only [enterLibs_env, hbuild] at hcwd ⊢
    exact leave_interp hcwd
  · have hstop : ¬ complete (alibsSettings cmd' (argList c names) sh).env := by
      rw [hset]
      exact hcomplete
    rw [alibs_of_incomplete cmd' _ sh hstop, alibs_of_incomplete cmd _ sh hcomplete, hset] at hcwd ⊢
    exact leave_interp hcwd

theorem buildAroma_interp (hout : OutNamed sh.env o) (hfit : AromaFit sh.disk sh.cwd o)
    (hclean : CleanFiles sh.env sh.sources) : buildAroma cmd' sh = buildAroma cmd sh := by
  have hsources := aromaSources_of_clean cmd hclean
  have hsources' := aromaSources_of_clean cmd' hclean
  have hcompiled : compiledAroma cmd' o sh = compiledAroma cmd o sh := by
    rw [compiledAroma, compiledAroma, aromaWrites, aromaWrites, hsources, hsources']
  have hobjects : ∀ w ∈ aromaWrites cmd sh, cleanObject w.1 = true := by
    intro w hw
    rw [aromaWrites, hsources] at hw
    obtain ⟨s, hs, rfl⟩ := List.mem_map.mp hw
    exact hclean s hs
  have hfolder : (compiledAroma cmd o sh).disk.folder (compiledAroma cmd o sh).cwd =
      some (objectFolder (aromaWrites cmd sh)) := by
    rw [folder_compiledAroma cmd sh hfit]
    exact if_pos rfl
  rw [buildAroma_eq cmd' sh hout hfit, buildAroma_eq cmd sh hout hfit, hcompiled,
    objectFiles_interp cmd cmd' hfolder hobjects]

/-- **abuild.cmd** under two interpreters. -/
theorem abuild_interp (h : Repository r e sh) (hfit : CleanStepFits cmd (.abuild c) sh) :
    CleanStepFits cmd' (.abuild c) sh ∧ abuild cmd' (cfgArg c) sh = abuild cmd (cfgArg c) sh := by
  have hplain := hfit.1
  obtain ⟨⟨hinv, hfolder⟩, hclean⟩ := hfit
  have hloaded : loadedEnv cmd' c sh = loadedEnv cmd c sh := loadedEnv_interp cmd cmd' hinv.switches
  have hset : setldr cmd' (cfgArg c) sh = setldr cmd (cfgArg c) sh :=
    setldr_interp cmd cmd' hinv.switches
  have hfit' : CleanStepFits cmd' (.abuild c) sh := by
    refine ⟨⟨hinv, ?_⟩, fun c' hc' => ?_⟩
    · rw [hloaded]
      exact hfolder
    · obtain rfl : c = c' := Step.abuild.inj hc'
      rw [hloaded]
      exact hclean c rfl
  have hcwd : (abuild cmd' (cfgArg c) sh).cwd = (abuild cmd (cfgArg c) sh).cwd :=
    (h.step hfit'.1).cwd.trans (h.step hplain).cwd.symm
  refine ⟨hfit', ?_⟩
  by_cases hcomplete : complete (loadedEnv cmd c sh)
  · obtain ⟨o, hout⟩ := hfolder.2 hcomplete
    obtain ⟨es, heq, _⟩ := setldr_eq cmd (cfgArg c) sh
    set inner : Shell :=
      { sh with env := loadedEnv cmd c sh, log := sh.log ++ es } with hinner
    have heq' : setldr cmd (cfgArg c) sh = inner := heq
    have hneed : needDeps cmd' (cfgArg c) inner = needDeps cmd (cfgArg c) inner := by
      rw [needDeps_eq, needDeps_eq]
      split
      · rfl
      · obtain ⟨hrepo, hinv', hagain⟩ := nested_invoked h hinv hcomplete es hinner
        have hnested : StepFits cmd (.alibs c []) inner :=
          ⟨hinv', by simp, by simp, hagain.toSameBuild.usable hfolder.1,
            fun _ => ⟨o, hagain.toSameBuild.outNamed hout⟩⟩
        exact (alibs_interp cmd cmd' hrepo hnested).2
    obtain ⟨d, clock, es₁, ls, hmid, _, _, hready, _⟩ :=
      needDeps_builds h hinv hcomplete hout es hinner
    obtain ⟨hout₁, hdir⟩ := hready.outFolder (h.outs o (outFolderName_of_load hcomplete hout))
    have haroma : AromaFit d sh.cwd o := by
      rw [h.cwd]
      exact ⟨hdir, hout₁.aroma, hout₁.libaroma⟩
    have hbuild : buildAroma cmd' (needDeps cmd (cfgArg c) inner) =
        buildAroma cmd (needDeps cmd (cfgArg c) inner) := by
      rw [hmid]
      exact buildAroma_interp cmd cmd' hout haroma (hclean c rfl)
    rw [abuild, abuild, hset, heq', if_neg hcomplete.1, if_neg hcomplete.2, if_neg hcomplete.1,
      if_neg hcomplete.2, hneed, hbuild] at hcwd ⊢
    exact leave_interp hcwd
  · have hstop : ¬ complete (loadedEnv cmd' c sh) := by
      rw [hloaded]
      exact hcomplete
    rw [abuild_of_incomplete cmd' c sh hstop, abuild_of_incomplete cmd c sh hcomplete,
      hset] at hcwd ⊢
    exact leave_interp hcwd

/-- **A step** under two interpreters. -/
theorem runStep_interp {a : Step} (h : Repository r e sh) (hfit : CleanStepFits cmd a sh) :
    CleanStepFits cmd' a sh ∧ runStep cmd' a sh = runStep cmd a sh := by
  cases a with
  | alibs c names =>
    obtain ⟨hfit', heq⟩ := alibs_interp cmd cmd' h hfit.1
    exact ⟨⟨hfit', fun c hc => nomatch hc⟩, heq⟩
  | abuild c => exact abuild_interp cmd cmd' h hfit
  | edit c lines => exact ⟨⟨hfit.1, fun c hc => nomatch hc⟩, rfl⟩
  | fetch t => exact ⟨⟨hfit.1, fun c hc => nomatch hc⟩, rfl⟩

end Building

/-! ### Linking and running -/

section Session

variable (cmd cmd' : Interpreter) {r : Path} {e : Env} {sh : Shell} {c : Option Token}
  {folder : Token} {ext : Str}

theorem atestSettings_interp (folder : Token)
    (hlines : ∀ l ∈ configLines sh (cfgArg c), handsSwitch l.text = false) :
    atestSettings cmd' (argList c [folder]) sh = atestSettings cmd (argList c [folder]) sh := by
  have hset : setldr cmd' (cfgArg c) (appNamed folder.text sh) =
      setldr cmd (cfgArg c) (appNamed folder.text sh) := setldr_interp cmd cmd' hlines
  rw [atestSettings_setldr, atestSettings_setldr, hset]

theorem AtestFits.interp (hfit : AtestFits cmd c folder ext sh) (h : Repository r e sh) :
    AtestFits cmd' c folder ext sh := by
  have hset := atestSettings_interp cmd cmd' folder hfit.switches
  have hloaded : loadedEnv cmd' c sh = loadedEnv cmd c sh :=
    loadedEnv_interp cmd cmd' hfit.switches
  refine ⟨hfit.switches, ?_, ?_, ?_, ?_, fun habsent => ?_⟩
  · rw [hloaded]
    exact hfit.complete
  · rw [hloaded]
    exact hfit.usable
  · rw [hloaded]
    exact hfit.out
  · rw [hset]
    exact hfit.name
  · rw [NoAroma, hset] at habsent
    obtain ⟨hclean, hsame⟩ := hfit.nested habsent
    have hswitches : ∀ l ∈ configLines sh [], handsSwitch l.text = false := hclean.1.1.switches
    have hplain : loadedEnv cmd' none sh = loadedEnv cmd none sh :=
      loadedEnv_interp cmd cmd' hswitches
    have hnested : nestedEnv cmd' c sh = nestedEnv cmd c sh := by
      rw [nestedEnv, nestedEnv, hloaded, loadSettings_interp cmd cmd' _ _ hswitches]
    refine ⟨(abuild_interp cmd cmd' h hclean).1, ?_⟩
    rw [hplain, hnested]
    exact hsame

/-- **atest.cmd** under two interpreters. -/
theorem atest_interp (h : Repository r e sh) (hfit : AtestFits cmd c folder ext sh) :
    AtestFits cmd' c folder ext sh ∧
      atest cmd' ext (argList c [folder]) sh = atest cmd ext (argList c [folder]) sh := by
  have hfit' := hfit.interp cmd cmd' h
  have hset := atestSettings_interp cmd cmd' folder hfit.switches
  have hentered := hfit.entered
  set inner := atestSettings cmd (argList c [folder]) sh with hinner
  have hentered' : Entered cmd' c folder sh inner := by
    rw [← hset]
    exact hfit'.entered
  have hneed : needAroma cmd' inner = needAroma cmd inner := by
    have haroma : hasAroma cmd' c folder sh = hasAroma cmd c folder sh := by
      rw [hasAroma, hasAroma, hset]
    rw [hentered'.needAroma, hentered.needAroma, haroma]
    split
    · rfl
    · rename_i habsent
      have hnested := (hentered.nested hfit (Bool.eq_false_iff.mpr habsent)).1
      exact (abuild_interp cmd cmd' (hentered.repository h) hnested).2
  have hready :
      atestReady cmd' (argList c [folder]) sh = atestReady cmd (argList c [folder]) sh := by
    rw [atestReady, atestReady, hset, ← hinner, hneed]
  have hcwd : (atest cmd' ext (argList c [folder]) sh).cwd =
      (atest cmd ext (argList c [folder]) sh).cwd :=
    (hfit'.repository h).cwd.trans (hfit.repository h).cwd.symm
  refine ⟨hfit', ?_⟩
  rw [atest, atest, hready] at hcwd ⊢
  exact leave_interp hcwd

/-- **arun.cmd** under two interpreters, with all it does. -/
theorem arun_interp {args : List Str}
    (hlines : ∀ l ∈ configLines sh (alibsArg args sh), handsSwitch l.text = false) :
    arun cmd' args sh = arun cmd args sh := by
  obtain ⟨es, heq⟩ := arun_fst cmd args sh
  obtain ⟨es', heq'⟩ := arun_fst cmd' args sh
  have hcwd : (arun cmd' args sh).1.cwd = (arun cmd args sh).1.cwd := by rw [heq, heq']
  rw [arun, arun, alibsSettings_interp cmd cmd' hlines] at hcwd ⊢
  exact congrArg (fun s => (s, _)) (leave_interp hcwd)

end Session

/-- A fitting step of a session, in which no configuration file hands `set` a switch. -/
def PlainFits (cmd : Interpreter) (w : Work) (sh : Shell) : Prop :=
  WorkFits cmd w sh ∧ ∀ args, w = .arun args →
    ∀ l ∈ configLines sh (alibsArg args sh), handsSwitch l.text = false

/-- One step under two interpreters. -/
theorem runWork_interp {cmd cmd' : Interpreter} {r : Path} {e : Env} {w : Work} {sh : Shell}
    (h : Repository r e sh) (hfit : PlainFits cmd w sh) :
    PlainFits cmd' w sh ∧ runWork cmd' w sh = runWork cmd w sh ∧
      Repository r e (runWork cmd w sh) := by
  refine and_assoc.mp ⟨?_, hfit.1.repository h⟩
  obtain ⟨hwork, hplain⟩ := hfit
  cases w with
  | build a =>
    obtain ⟨hfit', heq⟩ := runStep_interp cmd cmd' h hwork.1
    exact ⟨⟨⟨hfit', hwork.2⟩, fun args ha => nomatch ha⟩, heq⟩
  | atest c folder ext =>
    obtain ⟨hfit', heq⟩ := atest_interp cmd cmd' h hwork
    exact ⟨⟨hfit', fun args ha => nomatch ha⟩, heq⟩
  | arun args =>
    exact ⟨⟨hwork, hplain⟩, congrArg Prod.fst (arun_interp cmd cmd' (hplain args rfl))⟩

/-- **Any interpreter will do.**  A session of fitting steps in which no configuration file hands
`set` a switch is one under any other interpreter, and it leads to the same state: files, settings,
reports and all. -/
theorem session_interpreters {cmd : Interpreter} (cmd' : Interpreter) {r : Path} {e : Env}
    {sh : Shell} {works : List Work} (h : Repository r e sh)
    (hfit : AllFit (runWork cmd) (PlainFits cmd) works sh) :
    AllFit (runWork cmd') (PlainFits cmd') works sh ∧
      runs (runWork cmd') works sh = runs (runWork cmd) works sh :=
  runs_congr (fun _ _ hrepo hplain => runWork_interp hrepo hplain) h hfit

/-- An interpreter that forgets everything and stays where it is builds and links `demo` like any
other. -/
theorem session_interpreters_demo :
    runs (runWork ⟨fun _ _ _ => none, fun _ => [], false⟩)
        [.atest none demoFolder ".exe", .build (.edit none debugConfig)] smallRepository =
      runs (runWork (.idle true))
        [.atest none demoFolder ".exe", .build (.edit none debugConfig)] smallRepository := by
  have hhere : ConfigHere none := ⟨"config.txt".toList, by decide⟩
  have hfits : AllFit (runWork (.idle true)) (PlainFits (.idle true))
      [.atest none demoFolder ".exe", .build (.edit none debugConfig)] smallRepository :=
    ⟨⟨smallRepository_atestFits, fun args ha => nomatch ha⟩,
      ⟨⟨⟨hhere, fun c hc => nomatch hc⟩, hhere⟩, fun args ha => nomatch ha⟩, trivial⟩
  exact (session_interpreters _ smallRepository_fresh.repository hfits).2

end Atools
