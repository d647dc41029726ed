import Atools.Application

/-!
# `arun.cmd`: running an application

The script starts as alibs.cmd does, so a configuration name may stand before the application.  It
looks for the application in the out folder, with the extension of Windows programs or without: with
it the program is run here, without it is pushed to the device and run there.

atest.cmd links `APP_NAME`, to which the compiler adds the extension of the system it compiles for.
`arun_runs_linked_iff` says when the program arun.cmd starts is the one that has just been linked.
-/

namespace Atools

open Batch

/-! ### The script -/

/-- What arun.cmd does: it reports, calls a program, or works on the device through adb. -/
inductive Act
  | binaryNotFound (app : Str)
  | running (app : Str)
  | call (debugger : Option Str) (program arg : Str)
  | pushing (what : Str)
  | push (file target : Str)
  | shell (words : List Str)
  deriving DecidableEq

/-- Where the application goes on the device. -/
def deviceTest : Str := "/tmp/test"

/-- Where the debugger goes on the device. -/
def deviceGdb : Str := "/tmp/gdb"

/-- The application as a file of the out folder. -/
def appFile (env : Env) (app : Str) : Str := env.text "LIBAROMA_OUT" ++ '\\' :: app

theorem appFile_append (env : Env) (app s : Str) :
    appFile env app ++ s = appFile env (app ++ s) := by
  rw [appFile, appFile, List.append_assoc, List.cons_append]

/-- A Windows program, under the debugger if there is one for a debug build. -/
def runHere (env : Env) (app arg : Str) : List Act :=
  [.running app,
    .call (if isSet env "LIBAROMA_DEBUG" "yes" then env.get "LIBAROMA_GDB" else none)
      (appFile env app ++ ".exe".toList) arg]

/-- A program for the device; the debugger has to be a file here. -/
def runOnDevice (sh : Shell) (app arg : Str) : List Act :=
  let gdb := sh.env.text "LIBAROMA_GDB"
  let useGdb := isSet sh.env "LIBAROMA_DEBUG" "yes" && (sh.env.get "LIBAROMA_GDB").isSome &&
    sh.exist gdb
  (if useGdb then
    [.pushing "GDB", .push gdb deviceGdb, .shell ["chmod".toList, "0755".toList, deviceGdb]]
  else []) ++
  [.pushing app, .push (appFile sh.env app) deviceTest,
    .shell ["chmod".toList, "0755".toList, deviceTest],
    .shell (if useGdb then
      [deviceGdb, "-ex".toList, "run".toList, "--args".toList, deviceTest, arg]
    else [deviceTest, arg])]

/-- From looking for the application to the end of the script. -/
def launch (sh : Shell) (app arg : Str) : List Act :=
  let file := appFile sh.env app
  if ¬ sh.exist file ∧ ¬ sh.exist (file ++ ".exe".toList) then [.binaryNotFound app]
  else if sh.exist (file ++ ".exe".toList) then runHere sh.env app arg
  else runOnDevice sh app arg

/-- `arun.cmd ARGS…`; the settings are found as in alibs.cmd. -/
def arun (cmd : Interpreter) (args : List Str) (sh : Shell) : Shell × List Act :=
  let inner := alibsSettings cmd args sh
  (leave cmd sh inner,
    if inner.env.text "LIBAROMA_SOURCE" = [] then []
    else if inner.env.text "LIBAROMA_PLATFORM" = [] then []
    else
      let args := if (inner.env.get "CUSTOM_CFG").isSome then args.tail else args
      launch inner (args.headD []) (args.getD 1 []))

/-- The file that is run: the program that is called, or what becomes the test on the device. -/
def program (acts : List Act) : Option Str :=
  acts.findSome? fun
    | .call _ p _ => some p
    | .push file target => if target = deviceTest then some file else none
    | _ => none

/-- arun.cmd runs a Windows program whenever there is one. -/
theorem program_launch (sh : Shell) (app arg : Str) :
    program (launch sh app arg) =
      if sh.exist (appFile sh.env app ++ ".exe".toList) then
        some (appFile sh.env app ++ ".exe".toList)
      else if sh.exist (appFile sh.env app) then some (appFile sh.env app)
      else none := by
  have hdevice : program (runOnDevice sh app arg) = some (appFile sh.env app) := by
    have hne : deviceGdb ≠ deviceTest := by decide
    rw [runOnDevice]
    split
    · simp [program, hne]
    · simp [program]
  have hhere : program (runHere sh.env app arg) = some (appFile sh.env app ++ ".exe".toList) := rfl
  rw [launch]
  cases hexe : sh.exist (appFile sh.env app ++ ".exe".toList) with
  | true => simp [hhere]
  | false =>
    cases hfile : sh.exist (appFile sh.env app) with
    | true => simp [hdevice]
    | false => simp [program]

/-- **A run of arun.cmd** leaves all as it was; a proper invocation looks for its application with the
settings of its configuration. -/
theorem arun_invoked (cmd : Interpreter) {sh : Shell} {c : Option Token} {app : Token}
    (h : Invoked sh c [app]) (hcomplete : complete (loadedEnv cmd c sh)) :
    ∃ env es, arun cmd (argList c [app]) sh =
        ({ sh with log := sh.log ++ es },
          launch { sh with env := env, log := sh.log ++ es } app.text []) ∧
      SameSettings (loadedEnv cmd c sh) env := by
  obtain ⟨start, es, heq, _⟩ := alibsSettings_eq cmd (argList c [app]) sh
  rw [h.alibsArg] at heq
  have hsame := h.sameSettings hcomplete
  rw [heq] at hsame
  have hfull := hsame.complete_iff.mpr hcomplete
  have hshift := h.shift cmd
  rw [shiftConfig_fst, heq] at hshift
  refine ⟨_, es, ?_, hsame⟩
  rw [arun, heq]
  simp only [if_neg hfull.1, if_neg hfull.2]
  rw [hshift, leave]
  simp only [ite_self]
  rfl

/-! ### What atest.cmd has linked -/

section Linked

variable {cmd : Interpreter} {r : Path} {e : Env} {sh : Shell} {c : Option Token} {folder : Token}

/-- Up to its link command atest.cmd changes nothing outside the out folders, and it keeps the
settings of its configuration. -/
theorem atestReady_outside (h : AppFits cmd r e sh c) :
    SameOutside r noFile sh { atestReady cmd (argList c [folder]) sh with env := sh.env } ∧
      SameSettings (loadedEnv cmd c sh) (atestReady cmd (argList c [folder]) sh).env := by
  obtain ⟨start, env, es, heq, hstart, hset, _⟩ := atestSettings_eq cmd c folder sh
  set inner : Shell := { sh with env := env, log := sh.log ++ es } with hinner
  have henv : SameSettings (loadedEnv cmd c sh) env :=
    (loadSettings_congr cmd (cfgArg c) h.switches h.complete hstart).trans hset
  rw [atestReady, heq, needAroma]
  split
  · exact ⟨⟨rfl, rfl, fun _ _ => rfl, fun _ _ _ _ => rfl⟩, henv⟩
  · have hrepo : Repository r env inner :=
      ⟨h.repository.cwd, rfl, h.repository.home, h.repository.libs, h.repository.outs⟩
    have hfits : StepFits cmd (.abuild none) inner := by
      have hload : SameSettings (nestedEnv cmd c sh) (loadedEnv cmd none inner) :=
        loadSettings_sameSettings cmd [] h.plain henv
      refine ⟨invoked_plain h.plain, usable_of_loaded cmd [] h.plain hload h.nested.1,
        fun hcomplete => ?_⟩
      obtain ⟨o, hout⟩ := h.nested.2 (hload.complete_iff.mp hcomplete)
      exact ⟨o, hload.outNamed hout⟩
    have hsame := hfits.sameOutside hrepo
    refine ⟨⟨hsame.cwd, rfl, hsame.isDir, fun q n hq _ => hsame.file q n hq fun _ => id⟩, ?_⟩
    show SameSettings _ (runStep cmd (.abuild none) inner).env
    rw [hsame.env]
    exact henv

/-- The names of an application with and without the extension differ. -/
theorem segs_exe {app : Str} {a : Str} (hsep : ∀ d ∈ app, sep d = false)
    (ha : segs app = [.down a]) : ∃ x, segs (app ++ ".exe".toList) = [.down x] ∧ x ≠ a := by
  have hsep' : ∀ d ∈ app ++ ".ex".toList ++ ['e'], sep d = false := by
    intro d hd
    rw [List.append_assoc] at hd
    rcases List.mem_append.mp hd with hd | hd
    · exact hsep d hd
    · exact (show ∀ d ∈ ".ex".toList ++ ['e'], sep d = false by simp [sep]) d hd
  have hexe := segs_of_name hsep' (by decide)
  rw [List.append_assoc] at hexe
  refine ⟨_, hexe, fun heq => ?_⟩
  have hlen := congrArg List.length heq
  have hle : a.length ≤ app.length := by
    rw [segs, fields_of_no_delim hsep] at ha
    split at ha
    · exact absurd ha (by simp)
    · rw [List.filterMap_cons] at ha
      split at ha
      · exact absurd ha (by simp)
      · rename_i seg hseg
        obtain rfl : seg = .down a := (List.cons.inj ha).1
        rw [segOf] at hseg
        split at hseg
        · exact absurd hseg (by simp)
        · split at hseg
          · exact absurd hseg (by simp)
          · have hfold := Seg.down.inj (Option.some.inj hseg)
            rw [← hfold, fold, List.length_map, normalName]
            split
            · exact le_rfl
            · exact (List.rdropWhile_prefix _ _).length_le
  rw [fold, List.length_map, List.length_append] at hlen
  have hfour : (".ex".toList ++ ['e']).length = 4 := rfl
  omega

/-- A file of the out folder has been written. -/
theorem sameOutside_out (sh : Shell) {r : Path} {o : Str} (ho : outFolderName o) (m : Str)
    (x : File) : SameOutside r noFile sh { sh with disk := sh.disk.write (r ++ [o] ++ [m]) x } where
  cwd := rfl
  env := rfl
  isDir q _ := Disk.isDir_write _ _ q _
  file q n hq _ := by
    have hne : q ≠ r ++ [o] := by
      rintro rfl
      exact hq o ho List.prefix_rfl
    show (sh.disk.write _ x).file q n = _
    rw [Disk.write_concat, Disk.file, Disk.folder_put_ne _ _ hne]; rfl

/-- What the application is linked to is there afterwards, and no other name has come up. -/
theorem exists_written {d : Disk File} {p : Path} {n : Str} (hdir : d.isDir p = true) (x : File)
    (m : Str) : ((d.write (p ++ [n]) x).isDir (p ++ [m]) ||
        ((d.write (p ++ [n]) x).file p m).isSome) =
      (decide (m = n) || (d.isDir (p ++ [m]) || (d.file p m).isSome)) := by
  rw [Disk.isDir_write, file_write_self]
  by_cases hm : m = n
  · subst hm
    cases hfile : d.isDir (p ++ [m]) with
    | true => simp
    | false => simp [hdir]
  · simp [hm]

/-- Archives to link with lie in a folder. -/
theorem Links.isDir {ready : Shell} {o : Str} (h : Links ready) (hout : OutNamed ready.env o) :
    ready.disk.isDir (ready.cwd ++ [o]) = true := by
  have hthere := h.1
  rw [exist_of_resolve (resolve_libaroma hout ready.cwd), Bool.or_eq_true] at hthere
  rcases hthere with hthere | hthere
  · exact Disk.isDir_above (List.prefix_append _ _) hthere
  · rw [Disk.isDir]
    cases hf : ready.disk.folder (ready.cwd ++ [o]) with
    | some f => rfl
    | none =>
      rw [Disk.file, hf] at hthere
      exact absurd hthere Bool.false_ne_true

/-- The link command writes one file of the out folder. -/
theorem atest_writes {ready : Shell} {o m ext : Str} (h : AppFits cmd r e sh c)
    (hready : atestReady cmd (argList c [folder]) sh = ready) (hlinks : Links ready)
    (hout : OutNamed ready.env o) (ho : outFolderName o)
    (hm : segs (ready.env.text "APP_NAME" ++ ext) = [.down m]) :
    atest cmd ext (argList c [folder]) sh =
        { ready with env := sh.env, disk := ready.disk.write (r ++ [o] ++ [m]) .other } ∧
      SameOutside r noFile sh (atest cmd ext (argList c [folder]) sh) := by
  obtain ⟨hsame, _⟩ := @atestReady_outside _ _ _ _ _ folder h
  rw [hready] at hsame
  have hcwd : ready.cwd = r := hsame.cwd.trans h.repository.cwd
  have htarget : resolve ready.cwd (ready.env.text "LIBAROMA_OUT" ++
      '\\' :: ready.env.text "APP_NAME" ++ ext) = r ++ [o] ++ [m] := by
    rw [List.append_assoc, List.cons_append, resolve_outFile hout _ hm, hcwd]
  have hlinked : atest cmd ext (argList c [folder]) sh = { ready with
      env := sh.env, disk := ready.disk.write (r ++ [o] ++ [m]) .other } := by
    rw [atest_of_links ext hready hlinks hsame.cwd, htarget]
  refine ⟨hlinked, ?_⟩
  rw [hlinked]
  exact hsame.trans (sameOutside_out { ready with env := sh.env } ho m .other)

end Linked

/-- **From atest.cmd to arun.cmd.**  Right after atest.cmd has linked an application, arun.cmd with the
same configuration finds it, and the program it starts is the one that has been linked if and only if
the compiler has given it the extension of Windows programs or there was no such program of that name
in the out folder before. -/
theorem arun_runs_linked_iff {cmd : Interpreter} {r : Path} {e : Env} {sh ready sh' : Shell}
    {c : Option Token} {folder app : Token} {n a ext : Str} (h : AppFits cmd r e sh c)
    (hn : segs (configName (cfgArg c)) = [.down n])
    (hready : atestReady cmd (argList c [folder]) sh = ready) (hlinks : Links ready)
    (hname : ready.env.text "APP_NAME" = app.text) (hsep : ∀ d ∈ app.text, sep d = false)
    (ha : segs app.text = [.down a]) (hext : ext = [] ∨ ext = ".exe".toList)
    (hatest : atest cmd ext (argList c [folder]) sh = sh') (hinv : Invoked sh' c [app]) :
    ∃ p, program (arun cmd (argList c [app]) sh').2 = some p ∧
      (resolve r p = resolve r (appFile ready.env app.text ++ ext) ↔
        ext = ".exe".toList ∨ ready.exist (appFile ready.env app.text ++ ".exe".toList) = false) := by
  obtain ⟨o, hout⟩ := h.out
  have ho := outFolderName_of_load h.complete hout
  obtain ⟨hsame, henv⟩ := @atestReady_outside _ _ _ _ _ folder h
  rw [hready] at hsame henv
  have hnamed := henv.outNamed hout
  have hcwd : ready.cwd = r := hsame.cwd.trans h.repository.cwd
  obtain ⟨x, hx, hxa⟩ := segs_exe hsep ha
  -- the file that is linked
  obtain ⟨m, hm, hma⟩ : ∃ m, segs (app.text ++ ext) = [.down m] ∧
      (m = a ∧ ext = [] ∨ m = x ∧ ext = ".exe".toList) := by
    rcases hext with rfl | rfl
    · exact ⟨a, by rw [List.append_nil, ha], Or.inl ⟨rfl, rfl⟩⟩
    · exact ⟨x, hx, Or.inr ⟨rfl, rfl⟩⟩
  obtain ⟨hlinked, hsame'⟩ := atest_writes h hready hlinks hnamed ho (by rw [hname]; exact hm)
  rw [hatest] at hlinked hsame'
  have hdir : ready.disk.isDir (r ++ [o]) = true := by
    rw [← hcwd]
    exact hlinks.isDir hnamed
  -- the settings arun.cmd loads
  have hloaded : loadedEnv cmd c sh' = loadedEnv cmd c sh :=
    hsame'.loadedEnv h.repository.cwd hn id
  obtain ⟨env, es, harun, hset⟩ := arun_invoked cmd hinv (by rw [hloaded]; exact h.complete)
  rw [hloaded] at hset
  have hnamed' : OutNamed env o := hset.outNamed hout
  set run : Shell := { sh' with env := env, log := sh'.log ++ es } with hrun
  have hruncwd : run.cwd = r := hsame'.cwd.trans h.repository.cwd
  have hexist : ∀ s k, segs s = [.down k] → run.exist (appFile env s) =
      (decide (k = m) || ready.exist (appFile ready.env s)) := by
    intro s k hk
    have hnew := exist_of_resolve (resolve_outFile hnamed' run.cwd hk)
    have hold := exist_of_resolve (resolve_outFile hnamed ready.cwd hk)
    rw [appFile, appFile, hnew, hold, hruncwd, hcwd, ← exists_written hdir .other k]
    show (sh'.disk.isDir _ || (sh'.disk.file _ k).isSome) = _
    rw [hlinked]
  have hpath : ∀ s k, segs s = [.down k] → resolve r (appFile env s) = r ++ [o] ++ [k] :=
    fun s k hk => resolve_outFile hnamed' r hk
  have hpath' : resolve r (appFile ready.env app.text ++ ext) = r ++ [o] ++ [m] := by
    rw [appFile, List.append_assoc, List.cons_append, resolve_outFile hnamed r hm]
  rw [harun, program_launch]
  show ∃ p, (if run.exist (appFile env app.text ++ ".exe".toList) = true then
      some (appFile env app.text ++ ".exe".toList)
    else if run.exist (appFile env app.text) = true then some (appFile env app.text)
    else none) = some p ∧ _
  rw [appFile_append env app.text ".exe".toList, appFile_append ready.env app.text ".exe".toList,
    hexist _ x hx, hexist _ a ha, hpath']
  rcases hma with ⟨rfl, rfl⟩ | ⟨rfl, rfl⟩
  · rw [decide_eq_false hxa, Bool.false_or]
    cases hexe : ready.exist (appFile ready.env (app.text ++ ".exe".toList)) with
    | true =>
      refine ⟨_, rfl, ?_⟩
      rw [hpath _ x hx]
      constructor
      · intro heq
        exact absurd (List.singleton_inj.mp (List.append_cancel_left heq)) hxa
      · intro hcon
        exact absurd hcon (by decide)
    | false =>
      refine ⟨appFile env app.text, by simp, ?_⟩
      rw [hpath _ m ha]
      simp
  · refine ⟨appFile env (app.text ++ ".exe".toList), by simp, ?_⟩
    rw [hpath _ m hx]
    simp

/-- The application is named after its folder. -/
theorem smallRepository_app :
    (atestReady (.idle true) (argList none [demoFolder]) smallRepository).env.text "APP_NAME" =
      demoFolder.text := by
  decide +kernel

theorem smallRepository_nested : Usable (nestedEnv (.idle true) none smallRepository) ∧
    complete (nestedEnv (.idle true) none smallRepository) ∧
    OutNamed (nestedEnv (.idle true) none smallRepository) "out-sdl_".toList := by
  decide +kernel

theorem smallRepository_appFits :
    AppFits (.idle true) ["atools".toList] (fun _ => none) smallRepository none :=
  ⟨smallRepository_fresh.repository, smallRepository_fits.1.switches,
    smallRepository_fits.1.switches, smallRepository_settings.1, smallRepository_usable,
    ⟨_, smallRepository_settings.2⟩, smallRepository_nested.1,
    fun _ => ⟨_, smallRepository_nested.2.2⟩⟩

/-- `atest.cmd demo` in the small repository links. -/
theorem smallRepository_links :
    Links (atestReady (.idle true) (argList none [demoFolder]) smallRepository) := by
  have hlines := smallRepository_fits.1.switches
  have habsent := smallRepository_fresh.noAroma demoFolder hlines smallRepository_settings.1
    smallRepository_settings.2
  have hclean : CleanFiles (nestedEnv (.idle true) none smallRepository) smallTree := by
    rw [CleanFiles]
    decide +kernel
  obtain ⟨e₁, e₂, d₁, ls, hbuild⟩ := atestReady_builds smallRepository_fresh.repository hlines hlines
    smallRepository_settings.1 smallRepository_nested.2.1 smallRepository_nested.2.2 hclean habsent
  exact hbuild.exist smallRepository_settings.2

/-- The program goes to the out folder of the configuration. -/
theorem smallRepository_target :
    OutNamed (atestReady (.idle true) (argList none [demoFolder]) smallRepository).env
        "out-sdl_".toList ∧
      segs ((atestReady (.idle true) (argList none [demoFolder]) smallRepository).env.text
        "APP_NAME" ++ ".exe".toList) = [.down "demo.exe".toList] := by
  refine ⟨(atestReady_outside smallRepository_appFits).2.outNamed smallRepository_settings.2, ?_⟩
  rw [smallRepository_app]
  decide

/-- `arun.cmd demo` is a proper invocation afterwards. -/
theorem smallRepository_invoked :
    Invoked (atest (.idle true) ".exe" (argList none [demoFolder]) smallRepository) none
      [demoFolder] := by
  have hsame := (atest_writes smallRepository_appFits rfl smallRepository_links
    smallRepository_target.1 (by rw [outFolderName]; decide) smallRepository_target.2).2
  have hlines : configLines (atest (.idle true) ".exe" (argList none [demoFolder]) smallRepository)
      [] = smallConfig :=
    hsame.configLines rfl (n := "config.txt".toList) (by decide) id
  refine ⟨fun t ht => absurd ht (Option.not_mem_none t), fun _ t ht => ?_, fun _ _ => ?_, ?_,
    fun _ => ?_⟩
  · obtain rfl : demoFolder = t := by simpa using ht
    rw [hsame.existConfig rfl (n := "config-demo.txt".toList) (by decide)]
    decide +kernel
  · rw [hsame.env]
    rfl
  · rw [cfgArg_none, hlines]
    decide
  · rw [cfgArg_none, hlines]
    decide

/-- `atest.cmd demo`, then `arun.cmd demo`, with a compiler for Windows. -/
theorem arun_runs_linked_demo : ∃ p,
    program (arun (.idle true) (argList none [demoFolder])
      (atest (.idle true) ".exe" (argList none [demoFolder]) smallRepository)).2 = some p ∧
    resolve ["atools".toList] p = resolve ["atools".toList]
      (appFile (atestReady (.idle true) (argList none [demoFolder]) smallRepository).env
        demoFolder.text ++ ".exe".toList) := by
  obtain ⟨p, hp, hiff⟩ := arun_runs_linked_iff (a := "demo".toList) smallRepository_appFits
    (show segs (configName (cfgArg none)) = [.down "config.txt".toList] by decide) rfl
    smallRepository_links
    smallRepository_app (by simp [demoFolder, sep]) (by decide) (Or.inr rfl) rfl smallRepository_invoked
  exact ⟨p, hp, hiff.mpr (Or.inl rfl)⟩

end Atools
