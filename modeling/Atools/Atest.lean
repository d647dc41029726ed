import Atools.Dependencies
import Atools.Libaroma

/-!
# `atest.cmd`: building an application

The script loads the settings, has libaroma built when there is no `libaroma.a` in the out folder,
and links the sources of a folder with libaroma and its dependencies.  `atestReady` is the state in
which the link command runs.

`Agrees` is what the nested calls are for: abuild.cmd and alibs.cmd work with the settings that
abuild.cmd called on its own would have, and the archives land where the link command looks for
them.  The call of abuild.cmd does not pass the configuration name on, so this needs that there is
none (`agrees_needs`); without one, and without `set` switches in the file, it holds
(`agrees_of_plain`).
-/

namespace Atools

open Batch

/-! ### The script -/

/-- `%~n1`: the last name of the path an argument stands for, without its extension. -/
def argName (cwd : Path) (s : Str) : Str :=
  dropExtension (if baseName s = ".".toList ∨ baseName s = "..".toList then
    ((resolve cwd s).getLast?).getD [] else baseName s)

/-- `%~dp0` for a script in a folder. -/
def folderText (p : Path) : Str := p.flatMap (fun n => '\\' :: n) ++ ['\\']

/-- The application and the settings: with one argument it is the folder, with two the first one is
the configuration name.  Without a name for the application it is the test in the repository. -/
def atestSettings (cmd : Interpreter) (args : List Str) (sh : Shell) : Shell :=
  let first := args.headD []
  let second := args.getD 1 []
  let app := if second = [] then first else second
  let sh := (sh.setVar "APP_PATH" " ").setVar "APP_NAME" " "
  let sh := (sh.setVar "APP_PATH" app).setVar "APP_NAME" (argName sh.cwd app)
  let sh := setldr cmd (if second = [] then [] else first) sh
  if sh.env.text "APP_NAME" = [] then
    (sh.setVar "APP_PATH" (folderText sh.cwd ++ "\\test".toList)).setVar "APP_NAME" "test"
  else sh

/-- `if not exist !LIBAROMA_OUT!\libaroma.a call abuild.cmd` -/
def needAroma (cmd : Interpreter) (sh : Shell) : Shell :=
  if sh.exist (sh.env.text "LIBAROMA_OUT" ++ "\\libaroma.a".toList) then sh else abuild cmd [] sh

/-- The script up to its link command. -/
def atestReady (cmd : Interpreter) (args : List Str) (sh : Shell) : Shell :=
  let sh := needAroma cmd (atestSettings cmd args sh)
  sh.say (.buildingApp (sh.env.text "APP_NAME"))

/-- The words of the link command. -/
structure Link where
  gcc : Str
  flags : Str
  sources : List Str
  libFolder : Str
  depends : List Str
  headers : Str
  target : Str

/-- `LIBAROMA_DEPENDS` -/
def linkDepends (env : Env) : List Str :=
  flagFor env "LIBAROMA_PLATFORM" "linux" ["-static", "-laroma", "-ladeps"] [] ++
  flagFor env "LIBAROMA_OPENMP" "no" [] ["-fopenmp"] ++
  flagFor env "LIBAROMA_PLATFORM" "sdl" ["-lSDL"]
    (flagFor env "LIBAROMA_PLATFORM" "sdl2" ["-lSDL2"]
      (flagFor env "LIBAROMA_PLATFORM" "linux" ["-lrt"] [])) ++
  ["-lpthread".toList, "-lm".toList, "-lstdc++".toList]

/-- The link command: on linux the archives are named as libraries, elsewhere as files. -/
def linkCommand (cmd : Interpreter) (sh : Shell) : Link :=
  let out := sh.env.text "LIBAROMA_OUT"
  { gcc := sh.env.text "LIBAROMA_GCC"
    flags := sh.env.text "LA_GENERIC_CFLAGS"
    sources := listSources cmd sh.sources (sh.env.text "APP_PATH") ++
      flagFor sh.env "LIBAROMA_PLATFORM" "linux" []
        [out ++ "\\libaroma.a".toList, out ++ "\\libadeps.a".toList]
    libFolder := out
    depends := linkDepends sh.env
    headers := sourceFolder sh.env "\\include"
    target := out ++ '\\' :: sh.env.text "APP_NAME" }

/-- `atest.cmd ARGS…`, for a compiler that gives its programs the extension `ext`.  The link command
finds the archives or it writes nothing. -/
def atest (cmd : Interpreter) (ext : Str) (args : List Str) (sh : Shell) : Shell :=
  let ready := atestReady cmd args sh
  let out := ready.env.text "LIBAROMA_OUT"
  leave cmd sh (if ready.exist (out ++ "\\libaroma.a".toList) &&
      ready.exist (out ++ "\\libadeps.a".toList) then
    { ready with
      disk := ready.disk.write (resolve ready.cwd ((linkCommand cmd ready).target ++ ext)) .other }
  else ready)

/-! ### The settings of an application -/

/-- The application is noted before the settings are loaded. -/
def appNamed (app : Str) (sh : Shell) : Shell :=
  (((sh.setVar "APP_PATH" " ").setVar "APP_NAME" " ").setVar "APP_PATH" app).setVar "APP_NAME"
    (argName sh.cwd app)

/-- atest.cmd loads the settings of its configuration once. -/
theorem atestSettings_setldr (cmd : Interpreter) (c : Option Token) (folder : Token) (sh : Shell) :
    atestSettings cmd (argList c [folder]) sh =
      let sh' := setldr cmd (cfgArg c) (appNamed folder.text sh)
      if sh'.env.text "APP_NAME" = [] then
        (sh'.setVar "APP_PATH" (folderText sh'.cwd ++ "\\test".toList)).setVar "APP_NAME" "test"
      else sh' := by
  cases c with
  | none => rfl
  | some t =>
    have hsecond : (argList (some t) [folder]).getD 1 [] = folder.text := rfl
    rw [atestSettings]
    simp only [hsecond, if_neg folder.nonempty]
    rfl

/-- **The start of atest.cmd**: the settings of its configuration, and nothing else has changed. -/
theorem atestSettings_eq (cmd : Interpreter) (c : Option Token) (folder : Token) (sh : Shell) :
    ∃ start env es, atestSettings cmd (argList c [folder]) sh =
        { sh with env := env, log := sh.log ++ es } ∧
      SameSettings sh.env start ∧
      SameSettings (loadSettings cmd (cfgArg c) (configLines sh (cfgArg c)) start).1 env ∧
      loads es = [(resolve sh.cwd (configName (cfgArg c)),
        (loadSettings cmd (cfgArg c) (configLines sh (cfgArg c)) start).1)] := by
  set before := appNamed folder.text sh with hbefore
  have hstart : SameSettings sh.env before.env := by
    have hpath : settingVar "APP_PATH".toList = false := by decide
    have hname : settingVar "APP_NAME".toList = false := by decide
    exact sameSettings_assign (sameSettings_assign (sameSettings_assign (sameSettings_assign
      (fun v _ => rfl) hpath _) hname _) hpath _) hname _
  obtain ⟨es, hset, _, hloads⟩ := setldr_eq cmd (cfgArg c) before
  have hset' : setldr cmd (cfgArg c) before =
      { sh with
        env := (loadSettings cmd (cfgArg c) (configLines sh (cfgArg c)) before.env).1
        log := sh.log ++ es } := hset
  refine ⟨before.env, ?_⟩
  rw [atestSettings_setldr, hset']
  simp only
  split
  · refine ⟨_, es, rfl, hstart, ?_, hloads⟩
    exact sameSettings_assign (sameSettings_assign (fun v _ => rfl)
      (show settingVar "APP_PATH".toList = false by decide) _)
      (show settingVar "APP_NAME".toList = false by decide) _
  · exact ⟨_, es, rfl, hstart, fun v _ => rfl, hloads⟩

/-! ### What the calls report -/

/-- The settings loaded in the course of a run. -/
def newLoads (sh sh' : Shell) : List (Path × Env) := loads (sh'.log.drop sh.log.length)

theorem newLoads_of_log {sh sh' : Shell} {es : List Event} (h : sh'.log = sh.log ++ es) :
    newLoads sh sh' = loads es := by
  rw [newLoads, h, List.drop_left]

/-- The out folder of the application holds no libaroma yet. -/
def NoAroma (cmd : Interpreter) (c : Option Token) (folder : Token) (sh : Shell) : Prop :=
  sh.exist ((atestSettings cmd (argList c [folder]) sh).env.text "LIBAROMA_OUT" ++
    "\\libaroma.a".toList) = false

section Needed

variable {c : Option Token} {folder : Token} {sh : Shell}

end Needed

/-! ### What is enough -/

/-- The dependencies are built with settings as they were. -/
theorem DepsReady.same {lines : List Line} {env : Env} {d d' : Disk File} {r : Path}
    {o : Str} {t : ℕ} {ls : List (Path × Env)} (h : DepsReady lines env d d' r o t ls)
    (hplatform : lastRead loopRead lines "LIBAROMA_PLATFORM" ≠ none) :
    ∀ x ∈ ls, SameSettings env x.2 := by
  intro x hx
  cases h with
  | there => exact absurd hx List.not_mem_nil
  | made cfg env₂ env' _ hagain =>
    rw [List.mem_singleton.mp hx]
    exact hagain.sameSettings hplatform

/-- Both archives are found through the settings once they are there. -/
theorem exist_archives {sh : Shell} {o : Str} (hout : OutNamed sh.env o)
    (haroma : (sh.disk.file (sh.cwd ++ [o]) libaromaName).isSome)
    (hdeps : (sh.disk.file (sh.cwd ++ [o]) depsName).isSome) :
    sh.exist (sh.env.text "LIBAROMA_OUT" ++ "\\libaroma.a".toList) = true ∧
      sh.exist (sh.env.text "LIBAROMA_OUT" ++ "\\libadeps.a".toList) = true := by
  rw [exist_of_resolve (resolve_libaroma hout sh.cwd), haroma,
    exist_of_resolve (resolve_libadeps hout sh.cwd), hdeps, Bool.or_true, Bool.or_true]
  exact ⟨rfl, rfl⟩

/-- The settings abuild.cmd works with when atest.cmd calls it: `config.txt`, loaded over the
settings of the application. -/
def nestedEnv (cmd : Interpreter) (c : Option Token) (sh : Shell) : Env :=
  (loadSettings cmd [] (configLines sh []) (loadedEnv cmd c sh)).1

/-- Without a configuration name they are the settings of the application. -/
theorem nestedEnv_none {cmd : Interpreter} {sh : Shell}
    (hlines : ∀ l ∈ configLines sh [], handsSwitch l.text = false)
    (hplatform : Sets (configLines sh []) "LIBAROMA_PLATFORM")
    (hcomplete : complete (loadedEnv cmd none sh)) :
    SameSettings (loadedEnv cmd none sh) (nestedEnv cmd none sh) :=
  (loadSettings_again cmd [] hlines hcomplete fun _ _ => rfl).sameSettings hplatform.ne_none

/-- What atest.cmd has done when its link command runs and libaroma was built: abuild.cmd has loaded
`config.txt` and built into the out folder `o` of the settings it came to. -/
structure NestedBuild (cmd : Interpreter) (c : Option Token) (r : Path) (o : Str)
    (sh ready : Shell) (e₁ e₂ : Env) (d₁ : Disk File) (ls : List (Path × Env)) : Prop where
  cwd : ready.cwd = r
  env : SameSettings (loadedEnv cmd c sh) ready.env
  loads : newLoads sh ready = (resolve sh.cwd (configName (cfgArg c)), e₁) ::
    (resolve sh.cwd (configName []), e₂) :: ls
  own : SameSettings (loadedEnv cmd c sh) e₁
  nested : SameSettings (nestedEnv cmd c sh) e₂
  paths : ∀ x ∈ ls, x.1 = resolve sh.cwd (configName [])
  deps : DepsReady (configLines sh []) e₂ sh.disk d₁ r o sh.clock ls
  aroma : AromaChange d₁ ready.disk r o
  libaroma : (ready.disk.file (r ++ [o]) libaromaName).isSome

/-- **The nested call of abuild.cmd** in a repository in which it can build libaroma. -/
theorem atestReady_builds {cmd : Interpreter} {r : Path} {e : Env} {sh : Shell}
    {c : Option Token} {folder : Token} {o : Str} (hrepo : Repository r e sh)
    (hlines : ∀ l ∈ configLines sh (cfgArg c), handsSwitch l.text = false)
    (hplain : ∀ l ∈ configLines sh [], handsSwitch l.text = false)
    (hcomplete : complete (loadedEnv cmd c sh)) (hnested : complete (nestedEnv cmd c sh))
    (hout : OutNamed (nestedEnv cmd c sh) o) (hclean : CleanFiles (nestedEnv cmd c sh) sh.sources)
    (habsent : NoAroma cmd c folder sh) : ∃ e₁ e₂ d₁ ls,
      NestedBuild cmd c r o sh (atestReady cmd (argList c [folder]) sh) e₁ e₂ d₁ ls := by
  obtain ⟨start, env, es, heq, hstart, hsame, hloads⟩ := atestSettings_eq cmd c folder sh
  set inner : Shell := { sh with env := env, log := sh.log ++ es } with hinner
  have hown : SameSettings (loadedEnv cmd c sh)
      (loadSettings cmd (cfgArg c) (configLines sh (cfgArg c)) start).1 :=
    loadSettings_congr cmd (cfgArg c) hlines hcomplete hstart
  have henv : SameSettings (loadedEnv cmd c sh) env := hown.trans hsame
  have hload : SameSettings (nestedEnv cmd c sh) (loadedEnv cmd none inner) :=
    loadSettings_congr cmd [] hplain hnested henv
  have hrepo' : Repository r env inner := ⟨hrepo.cwd, rfl, hrepo.home, hrepo.libs, hrepo.outs⟩
  obtain ⟨d₁, d, clock, es₁, ls, hrun, _, hloads₁, hready, hcfg, hchange, harch⟩ :=
    abuild_builds cmd hrepo' (invoked_plain hplain) (hload.complete_iff.mpr hnested)
      (hload.outNamed hout)
  have hclean' : CleanFiles (loadedEnv cmd none inner) inner.sources := by
    rw [CleanFiles, aromaFiles_congr hload]
    exact hclean
  obtain ⟨a, ha, _⟩ :=
    libaroma_built hready (hrepo.outs o (outFolderName_of_load hnested hout)) hclean' harch
  have habsent' : inner.exist (inner.env.text "LIBAROMA_OUT" ++ "\\libaroma.a".toList) = false := by
    rw [NoAroma, heq] at habsent
    exact habsent
  have hfinal : atestReady cmd (argList c [folder]) sh =
      { inner with
        disk := d
        clock := clock + 1
        log := inner.log ++ es₁ ++ [.buildingApp (env.text "APP_NAME")] } := by
    rw [atestReady, heq, needAroma, habsent', if_neg Bool.false_ne_true, ← cfgArg_none, hrun]
    rfl
  have hlog : (atestReady cmd (argList c [folder]) sh).log =
      sh.log ++ (es ++ (es₁ ++ [.buildingApp (env.text "APP_NAME")])) := by
    rw [hfinal]
    show sh.log ++ es ++ es₁ ++ _ = _
    simp only [List.append_assoc]
  have hnew : newLoads sh (atestReady cmd (argList c [folder]) sh) =
      (resolve sh.cwd (configName (cfgArg c)),
        (loadSettings cmd (cfgArg c) (configLines sh (cfgArg c)) start).1) ::
      (resolve sh.cwd (configName []), loadedEnv cmd none inner) :: ls := by
    rw [newLoads_of_log hlog, loads, List.filterMap_append, List.filterMap_append, ← loads,
      ← loads, hloads, hloads₁]
    show [_] ++ (_ :: ls ++ []) = _
    rw [List.append_nil]; rfl
  refine ⟨_, _, d₁, ls, ?_, ?_, hnew, hown, hload, hcfg, hready, ?_, ?_⟩
  · rw [hfinal]
    exact hrepo.cwd
  · rw [hfinal]
    exact henv
  · rw [hfinal]
    exact hchange
  · rw [hfinal]
    show (d.file (r ++ [o]) libaromaName).isSome = true
    rw [ha]; rfl

section Built

variable {cmd : Interpreter} {c : Option Token} {r : Path} {o : Str} {sh ready : Shell}
  {e₁ e₂ : Env} {d₁ : Disk File} {ls : List (Path × Env)}

theorem NestedBuild.libadeps (h : NestedBuild cmd c r o sh ready e₁ e₂ d₁ ls) :
    (ready.disk.file (r ++ [o]) depsName).isSome := by
  rw [h.aroma.files _ (by decide)]
  exact h.deps.isSome

theorem NestedBuild.others (h : NestedBuild cmd c r o sh ready e₁ e₂ d₁ ls) {o' : Str}
    (hne : o' ≠ o) : Unchanged sh.disk ready.disk r o' :=
  unchanged_of_frame (fun q hq => (h.aroma.frame q hq).trans (h.deps.frame hq)) hne

/-- The archives it has built lie where the settings say if these are for the same out folder. -/
theorem NestedBuild.exist (h : NestedBuild cmd c r o sh ready e₁ e₂ d₁ ls)
    (hout : OutNamed (loadedEnv cmd c sh) o) :
    ready.exist (ready.env.text "LIBAROMA_OUT" ++ "\\libaroma.a".toList) = true ∧
      ready.exist (ready.env.text "LIBAROMA_OUT" ++ "\\libadeps.a".toList) = true := by
  have hnamed : OutNamed ready.env o := h.env.outNamed hout
  apply exist_archives hnamed
  · rw [h.cwd]
    exact h.libaroma
  · rw [h.cwd]
    exact h.libadeps

end Built

/-- An application is to be built in a repository: the configuration is a file next to the scripts
that sets what must be set, and there is no libaroma yet.  What a file without switches loads are
settings the scripts can work with, and the compiler and archiver calls succeed, as they do when the
libaroma sources have clean names. -/
structure ToBuild (r : Path) (e : Env) (sh : Shell) (c : Option Token) (folder : Token) : Prop where
  repository : Repository r e sh
  config : ∃ n, segs (configName (cfgArg c)) = [.down n]
  source : Sets (configLines sh (cfgArg c)) "LIBAROMA_SOURCE"
  platform : Sets (configLines sh (cfgArg c)) "LIBAROMA_PLATFORM"
  absent : ∀ cmd, NoAroma cmd c folder sh
  plain : (∀ l ∈ configLines sh (cfgArg c), handsSwitch l.text = false) → ∀ cmd,
    SettingsFit (loadedEnv cmd c sh) ∧ CleanFiles (loadedEnv cmd c sh) sh.sources

/-- What it means for the out folder of an application to hold no libaroma. -/
theorem noAroma_iff {cmd : Interpreter} {sh : Shell} {c : Option Token} {o : Str} (folder : Token)
    (hlines : ∀ l ∈ configLines sh (cfgArg c), handsSwitch l.text = false)
    (hcomplete : complete (loadedEnv cmd c sh)) (hout : OutNamed (loadedEnv cmd c sh) o) :
    NoAroma cmd c folder sh ↔ (sh.disk.isDir (sh.cwd ++ [o] ++ [libaromaName]) ||
      (sh.disk.file (sh.cwd ++ [o]) libaromaName).isSome) = false := by
  obtain ⟨start, env, es, heq, hstart, hsame, _⟩ := atestSettings_eq cmd c folder sh
  have hloaded := loadSettings_congr cmd (cfgArg c) hlines hcomplete hstart
  rw [NoAroma, heq, exist_of_resolve (resolve_libaroma ((hloaded.trans hsame).outNamed hout) _)]

/-- In a fresh repository there is no libaroma to link with. -/
theorem Fresh.noAroma {cmd : Interpreter} {r : Path} {e : Env} {sh : Shell} {c : Option Token}
    {o : Str} (h : Fresh r e sh) (folder : Token)
    (hlines : ∀ l ∈ configLines sh (cfgArg c), handsSwitch l.text = false)
    (hcomplete : complete (loadedEnv cmd c sh)) (hout : OutNamed (loadedEnv cmd c sh) o) :
    NoAroma cmd c folder sh := by
  have ho := outFolderName_of_load hcomplete hout
  rw [noAroma_iff folder hlines hcomplete hout, h.cwd, h.file ho, Disk.isDir,
    Disk.folder_eq_none (List.prefix_append _ _) (h.noFolder o ho)]
  rfl

/-- The folder of an application. -/
def demoFolder : Token := ⟨"demo".toList, by decide, by decide⟩

theorem smallRepository_lines : configLines smallRepository [] = smallConfig := rfl

theorem smallRepository_toBuild :
    ToBuild ["atools".toList] (fun _ => none) smallRepository none demoFolder := by
  have hlines : ∀ l ∈ configLines smallRepository (cfgArg none), handsSwitch l.text = false :=
    smallRepository_fits.1.switches
  have hloaded : ∀ cmd, loadedEnv cmd none smallRepository =
      loadedEnv (.idle true) none smallRepository := fun cmd => loadedEnv_interp (.idle true) cmd hlines
  refine ⟨smallRepository_fresh.repository, ⟨"config.txt".toList, by decide⟩,
    ⟨"D:\\projects\\libaroma".toList, by decide, by rw [cfgArg_none, smallRepository_lines]; decide⟩,
    ⟨"sdl".toList, by decide, by rw [cfgArg_none, smallRepository_lines]; decide⟩,
    fun cmd => ?_, fun _ cmd => ?_⟩
  · apply smallRepository_fresh.noAroma demoFolder hlines
    · rw [hloaded]
      exact smallRepository_settings.1
    · rw [hloaded]
      exact smallRepository_settings.2
  · rw [hloaded]
    exact ⟨smallRepository_fits.2, by rw [CleanFiles]; decide +kernel⟩

end Atools
