import Atools.Alibs

/-!
# `abuild.cmd`: libaroma itself

The script loads the settings, calls alibs.cmd when there is no `libadeps.a` in the out folder,
compiles the sources of ten libaroma folders into `aroma` in the out folder and adds all objects
there to `libaroma.a`.
-/

namespace Atools

open Batch

/-! ### The source lists -/

/-- The names `dir /b /a:-d "FOLDER\*.c"` lists. -/
def cFiles (t : SourceTree) (folder : Str) : List Str :=
  (t.files folder).filter fun n => ".c".toList.isSuffixOf (fold n)

/-- The sources a loop over such a listing collects. -/
def listSources (cmd : Interpreter) (t : SourceTree) (folder : Str) : List Str :=
  (cFiles t folder).filterMap fun n =>
    (listedName cmd actsQuoted n).map fun n => folder ++ '\\' :: n

/-- `%LIBAROMA_SOURCE%` followed by a folder. -/
def sourceFolder (env : Env) (folder : Str) : Str := env.text "LIBAROMA_SOURCE" ++ folder

/-- The platform whose sources are compiled; SDL2 has those of SDL. -/
def sourcePlatform (env : Env) : Str :=
  if isSet env "LIBAROMA_PLATFORM" "sdl2" then "sdl" else env.text "LIBAROMA_PLATFORM"

/-- The folder of the platform. -/
def platFolder (env : Env) : Str := sourceFolder env ("\\src\\plat\\".toList ++ sourcePlatform env)

/-- `LIBAROMA_DEBUGSRC`: two files that are named, not listed. -/
def debugSources (env : Env) : List Str :=
  sourceFolder env "\\src\\debug\\buildinfo.c" ::
    if isSet env "LIBAROMA_MEMDEBUG" "yes" then [sourceFolder env "\\src\\debug\\memtrack.c"] else []

/-- The folders that are listed after the platform and the debug files. -/
def listedFolders (env : Env) : List Str :=
  [sourceFolder env "\\src\\ctl", sourceFolder env "\\src\\ctl\\list",
    sourceFolder env "\\src\\graph", sourceFolder env "\\src\\hid"] ++
  (if isSet env "LIBAROMA_ZIP" "no" then [] else [sourceFolder env "\\src\\minzip"]) ++
  [sourceFolder env "\\src\\ui", sourceFolder env "\\src\\utils", sourceFolder env "\\src"]

/-- All sources, in the order of the compiler call. -/
def aromaSources (cmd : Interpreter) (env : Env) (t : SourceTree) : List Str :=
  listSources cmd t (platFolder env) ++ debugSources env ++
    (listedFolders env).flatMap (listSources cmd t)

/-! ### The compiler flags -/

/-- A flag for a setting with a value, and one for it without. -/
def flagFor (env : Env) (name value : Str) (yes no : List Str) : List Str :=
  if isSet env name value then yes else no

/-- `LIBAROMA_CFLAGS`, and the include folders of the compiler call. -/
def aromaFlags (env : Env) : List Str :=
  (["-g -ggdb", env.text "LA_GENERIC_CFLAGS",
    "-c", "-Wno-unused-command-line-argument", "-Wno-ignored-optimization-argument",
    "-Wno-unknown-warning-option"] : List Str) ++
  flagFor env "LIBAROMA_PLATFORM" "sdl" ["-DLIBAROMA_FB_INITHELPER"]
    (flagFor env "LIBAROMA_PLATFORM" "sdl2"
      ["-DLIBAROMA_FB_INITHELPER", "-DLIBAROMA_PLATFORM_SDL2"] []) ++
  (if (env.get "LIBAROMA_PLATFORM_ANDROID").isSome then ["-DANDROID".toList] else []) ++
  flagFor env "LIBAROMA_SVG" "no" ["-DLIBAROMA_CONFIG_NOSVG"] [] ++
  flagFor env "LIBAROMA_ZIP" "no" ["-DLIBAROMA_CONFIG_NOMINZIP"] [] ++
  flagFor env "LIBAROMA_JPEG" "yes" ["-I..\\..\\jpeg"] ["-DLIBAROMA_CONFIG_NOJPEG"] ++
  flagFor env "LIBAROMA_DRM" "yes" ["-I..\\..\\drm"] ["-DLIBAROMA_CONFIG_NODRM"] ++
  flagFor env "LIBAROMA_OPENMP" "no" [] ["-DLIBAROMA_CONFIG_OPENMP", "-fopenmp"] ++
  flagFor env "LIBAROMA_HARFBUZZ" "yes" ["-I..\\..\\harfbuzz\\src"]
    ["-DLIBAROMA_CONFIG_TEXT_NOHARFBUZZ"] ++
  flagFor env "LIBAROMA_DEBUG" "yes" ["-DLIBAROMA_CONFIG_DEBUG_TRACE=3"] [] ++
  flagFor env "LIBAROMA_MEMDEBUG" "yes" ["-DLIBAROMA_CONFIG_DEBUG_MEMORY=1"] [] ++
  flagFor env "LIBAROMA_ZIP" "no" [] ["-I".toList ++ sourceFolder env "\\src\\minzip"] ++
  ["-DLIBAROMA_CONFIG_DEBUG=".toList ++
      if isSet env "LIBAROMA_LOGLEVEL" [] then "3".toList else env.text "LIBAROMA_LOGLEVEL",
    "-DLIBAROMA_CONFIG_DEBUG_FILE=".toList ++
      if isSet env "LIBAROMA_LOGFILE" [] then "0".toList else env.text "LIBAROMA_LOGFILE"] ++
  flagFor env "LIBAROMA_BUILDINFO" "yes" ["-DLIBAROMA_CONFIG_COMPILER_MESSAGE=1"] [] ++
  (["-I..\\..\\zlib\\src", "-I..\\..\\png", "-I..\\..\\freetype\\include",
    "-I".toList ++ sourceFolder env "\\src", "-I".toList ++ platFolder env,
    "-I".toList ++ sourceFolder env "\\include"] : List Str)

/-! ### The script -/

/-- From clearing the object folder to the end of the script. -/
def buildAroma (cmd : Interpreter) (sh : Shell) : Shell :=
  let folder := sh.env.text "LIBAROMA_OUT" ++ "\\aroma".toList
  let sh := if sh.isDir (folder ++ ['\\']) then sh.rd folder else sh
  let sh := (sh.mkdir folder).cd folder
  let sh := sh.say .buildingLibaroma
  let sh := sh.compile (aromaFlags sh.env) (aromaSources cmd sh.env sh.sources)
  let sh := sh.ar "..\\libaroma.a" (sh.objectFiles cmd)
  sh.cd "..\\.."

/-- `if not exist "%LIBAROMA_OUT%\libadeps.a" call alibs.cmd %1` -/
def needDeps (cmd : Interpreter) (arg : Str) (sh : Shell) : Shell :=
  if sh.exist (sh.env.text "LIBAROMA_OUT" ++ "\\libadeps.a".toList) then sh
  else alibs cmd (if arg = [] then [] else [arg]) sh

/-- `abuild.cmd ARG` -/
def abuild (cmd : Interpreter) (arg : Str) (sh : Shell) : Shell :=
  let inner := setldr cmd arg sh
  if inner.env.text "LIBAROMA_SOURCE" = [] then leave cmd sh inner
  else if inner.env.text "LIBAROMA_PLATFORM" = [] then leave cmd sh inner
  else leave cmd sh (buildAroma cmd (needDeps cmd arg inner))

/-! ### What a run leaves behind -/

/-- The folder for the objects of libaroma. -/
def aromaName : Str := "aroma"

/-- The archive of libaroma. -/
def libaromaName : Str := "libaroma.a"

/-- What the compiler call writes. -/
def aromaWrites (cmd : Interpreter) (sh : Shell) : List (Str × Obj) :=
  objects (aromaFlags sh.env) (aromaSources cmd sh.env sh.sources) sh.clock

/-- What the disk has to allow before libaroma is built into the out folder `o`. -/
structure AromaFit (d : Disk File) (r : Path) (o : Str) : Prop where
  out : d.isDir (r ++ [o]) = true
  free : d.file (r ++ [o]) aromaName = none
  archive : archivable d (r ++ [o] ++ [libaromaName]) = true

/-- The state in which the objects of libaroma are archived. -/
def compiledAroma (cmd : Interpreter) (o : Str) (sh : Shell) : Shell :=
  { sh with
    cwd := sh.cwd ++ [o] ++ [aromaName]
    disk := (sh.disk.renew sh.cwd (sh.cwd ++ [o] ++ [aromaName])).put
      (sh.cwd ++ [o] ++ [aromaName]) (asFiles (aromaWrites cmd sh))
    clock := sh.clock + 1
    log := sh.log ++ [.buildingLibaroma] }

theorem not_aroma_above {p : Path} (o : Str) : ¬ p ++ [o] ++ [aromaName] <+: p := by
  intro h
  have hlen := h.length_le
  simp only [List.length_append, List.length_singleton] at hlen
  omega

theorem folder_compiledAroma (cmd : Interpreter) (sh : Shell) {o : Str}
    (hfit : AromaFit sh.disk sh.cwd o) (q : Path) :
    (compiledAroma cmd o sh).disk.folder q =
      if q = sh.cwd ++ [o] ++ [aromaName] then some (objectFolder (aromaWrites cmd sh))
      else if sh.cwd ++ [o] ++ [aromaName] <+: q then none
      else sh.disk.folder q :=
  folder_put_renew (aromaWrites cmd sh) hfit.out hfit.free (not_aroma_above o) q

/-- Whatever the interpreter, libaroma is compiled and then archived. -/
theorem buildAroma_eq (cmd : Interpreter) (sh : Shell) {o : Str} (hout : OutNamed sh.env o)
    (hfit : AromaFit sh.disk sh.cwd o) :
    buildAroma cmd sh =
      ((compiledAroma cmd o sh).ar "..\\libaroma.a"
        ((compiledAroma cmd o sh).objectFiles cmd)).cd "..\\.." := by
  set p := sh.cwd ++ [o] with hp
  set folder := sh.env.text "LIBAROMA_OUT" ++ "\\aroma".toList with hfolder
  have hpath : resolve sh.cwd folder = p ++ [aromaName] := by
    rw [hfolder, show "\\aroma".toList = '\\' :: "aroma".toList from rfl, resolve_out hout]
    rfl
  have hpath' : resolve sh.cwd (folder ++ ['\\']) = p ++ [aromaName] := by
    rw [hfolder, List.append_assoc,
      show "\\aroma".toList ++ ['\\'] = '\\' :: "aroma\\".toList from rfl, resolve_out hout]
    rfl
  have hblocked : sh.disk.blocked (p ++ [aromaName]) = false := by
    rw [Disk.blocked_concat _ hfit.out, hfit.free]; rfl
  have henter := enter_renewed sh hpath hpath' hblocked (not_aroma_above o)
  have hcompile : (({ sh with
        disk := sh.disk.renew sh.cwd (p ++ [aromaName]), cwd := p ++ [aromaName] } : Shell).say
      .buildingLibaroma).compile (aromaFlags sh.env) (aromaSources cmd sh.env sh.sources) =
      compiledAroma cmd o sh := by
    rw [compiledAroma, Shell.compile, aromaWrites, objects, asFiles, List.map_map]
    rfl
  rw [buildAroma]
  simp only [← hfolder, henter]
  simp only [Shell.say] at hcompile ⊢
  rw [hcompile]

/-- **One build of libaroma**: the objects are made anew, the archiver writes the archive or
nothing, and the script comes back to where it was.  Clean object names all reach the archive. -/
theorem buildAroma_spec (cmd : Interpreter) (sh : Shell) {o : Str} (hout : OutNamed sh.env o)
    (hfit : AromaFit sh.disk sh.cwd o) :
    ∃ d, buildAroma cmd sh =
        { sh with
          disk := d
          clock := sh.clock + 1
          log := sh.log ++ [.buildingLibaroma] } ∧
      (∃ d₁, (∀ q, d₁.folder q =
          if q = sh.cwd ++ [o] ++ [aromaName] then some (objectFolder (aromaWrites cmd sh))
          else if sh.cwd ++ [o] ++ [aromaName] <+: q then none
          else sh.disk.folder q) ∧
        (d = d₁ ∨ ∃ a, d = d₁.write (sh.cwd ++ [o] ++ [libaromaName]) (.archive a))) ∧
      ((∀ s ∈ aromaSources cmd sh.env sh.sources, cleanObject (objectName s) = true) →
        Archived sh.disk d (sh.cwd ++ [o] ++ [aromaName]) (sh.cwd ++ [o]) libaromaName
          (aromaWrites cmd sh)) := by
  set p := sh.cwd ++ [o] with hp
  have hcwd : ¬ p ++ [aromaName] <+: sh.cwd := not_aroma_above o
  set built := compiledAroma cmd o sh with hbuilt
  have htarget : resolve (p ++ [aromaName]) "..\\libaroma.a".toList = p ++ [libaromaName] := by
    show walk (p ++ [aromaName]) [.up, .down libaromaName] = p ++ [libaromaName]
    rw [walk_up, List.dropLast_concat, walk_down, walk_nil]
  have hfolders := folder_compiledAroma cmd sh hfit
  obtain ⟨d, hd, hcases⟩ := built.ar_cases "..\\libaroma.a".toList (built.objectFiles cmd)
  have hwritten : d = built.disk ∨
      ∃ a, d = built.disk.write (p ++ [libaromaName]) (.archive a) := by
    rw [← htarget]
    exact hcases
  refine ⟨d, ?_, ⟨built.disk, hfolders, hwritten⟩, ?_⟩
  · have hhome : d.isDir sh.cwd = true := by
      have hbefore : built.disk.isDir sh.cwd = true := by
        have hne : sh.cwd ≠ p ++ [aromaName] := by
          rw [hp]
          simp
        rw [Disk.isDir, hfolders, if_neg hne, if_neg hcwd]
        exact Disk.isDir_above (List.prefix_append _ _) hfit.out
      rcases hwritten with rfl | ⟨a, rfl⟩
      · exact hbefore
      · rw [Disk.isDir_write]
        exact hbefore
    have hback : resolve (p ++ [aromaName]) "..\\..".toList = sh.cwd := by
      rw [resolve_up_up, List.dropLast_concat, hp, List.dropLast_concat]
    have hcwd' : built.cwd = p ++ [aromaName] := rfl
    rw [buildAroma_eq cmd sh hout hfit, hd, Shell.cd]
    simp only [Shell.isDir, hcwd', hback, hhome, if_true]
    rfl
  · intro hclean
    obtain ⟨d', hd', harch⟩ := ar_renewed cmd built sh.cwd (p := p) rfl rfl htarget hfit.out
      hfit.free hcwd List.prefix_rfl (by decide) hfit.archive (by
        intro w hw
        obtain ⟨s, hs, rfl⟩ := List.mem_map.mp hw
        exact hclean s hs)
    have heq : d = d' := congrArg Shell.disk (hd.symm.trans hd')
    rw [heq]
    exact harch

end Atools
