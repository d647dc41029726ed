import Atools.Shell

/-!
# `_setldr.cmd`: the settings loader

The loop over the configuration file, the checks for the two settings that must be there, the
generic compiler flags and the name of the out folder.

`configStep` is the body of the loop with its scratch variables `key`, `val` and `tempvar`.
`readLine` is what a line comes to: the argument handed to `set`, or nothing.  Away from the scratch
variables the two agree (`configStep_get`), so a run of the loop is a sequence of `set` commands that
do not depend on the environment.
-/

namespace Atools

open Batch

/-! ### The loop over the configuration file -/

/-- The file a configuration name stands for. -/
def configName (arg : Str) : Str :=
  if arg = [] then "config.txt" else "config-".toList ++ arg ++ ".txt".toList

/-- `:trimhelper`: `%*` is the text of the arguments without the blanks around it. -/
def trimhelper (args : Str) (env : Env) : Env := env.assign "tempvar" (trimBlanks args)

/-- `:trim`: the variable loses the blanks around it and its double quotes.  `tempvar` is set inside
a `setlocal` and does not come out. -/
def trim (name : Str) (env : Env) : Env :=
  let inner := trimhelper (env.text name) env
  env.assign name (expandDequoted (inner.get "tempvar"))

/-- The body of the loop, for the first two fields of a line. -/
def configBody (cmd : Interpreter) (a b : Str) (env : Env) : Env :=
  let env := env.assign "key" a
  let env := env.assign "val" b
  let env := trim "key" env
  if expandFirst (env.get "key") = ['#'] then env
  else if env.text "val" = [] then env
  else
    let env := trim "val" env
    runSet cmd (env.text "key" ++ '=' :: env.text "val") env

/-- One line of the file: `for /f "tokens=1,2 delims=="` runs the body unless there is no field. -/
def configStep (cmd : Interpreter) (env : Env) (line : Str) : Env :=
  match fields (· == '=') line with
  | [] => env
  | [a] => configBody cmd a [] env
  | a :: b :: _ => configBody cmd a b env

/-- The loop of `_setldr.cmd`. -/
def configLoop (cmd : Interpreter) (env : Env) (lines : List Line) : Env :=
  lines.foldl (fun env l => configStep cmd env l.text) env

/-! ### After the loop -/

/-- `set LA_GENERIC_CFLAGS=!LA_GENERIC_CFLAGS! FLAGS` -/
def addFlags (flags : Str) (env : Env) : Env :=
  env.assign "LA_GENERIC_CFLAGS" (env.text "LA_GENERIC_CFLAGS" ++ flags)

/-- Whether a setting has the given value. -/
def isSet (env : Env) (name value : Str) : Bool := env.text name == value

/-- The generic compiler flags. -/
def genericFlags (env : Env) : Env :=
  let env := if isSet env "LIBAROMA_DEBUG" "yes" then addFlags " -g -ggdb" env
    else addFlags " -s -O3" env
  let env := if isSet env "LIBAROMA_WARNINGS" "yes" then addFlags " -Wall -Wextra" env
    else addFlags " -w" env
  let env := if isSet env "LIBAROMA_CPU" "neon" then
    addFlags " -mfloat-abi=hard -mfpu=neon -D__ARM_NEON" env else env
  let env := if isSet env "LIBAROMA_CPU" "sse2" then addFlags " -msse2 -D__i386" env else env
  if isSet env "LIBAROMA_NOWINCONSOLE" "yes" then addFlags " -mwindows" env else env

/-- Android is linux with a flag of its own. -/
def androidPlatform (env : Env) : Env :=
  if isSet env "LIBAROMA_PLATFORM" "android" then
    (env.assign "LIBAROMA_PLATFORM" "linux").assign "LIBAROMA_PLATFORM_ANDROID" "yes"
  else env

/-- The name of the out folder.  The test before the script appends the CPU compares the name
`LIBAROMA_CPU` itself with the empty text, so the CPU is appended whether it is set or not. -/
def outName (arg : Str) (env : Env) : Str :=
  "out-".toList ++ (if arg = [] then env.text "LIBAROMA_PLATFORM" else arg) ++
    '_' :: env.text "LIBAROMA_CPU"

/-- What comes after the loop, and the variable reported as missing.  Where one is missing the script
stops only if the last `set` of the loop has succeeded, for `call :fail` hands its ERRORLEVEL on to
`&&`; what it would add to incomplete settings otherwise is left out. -/
def finishSettings (arg : Str) (env : Env) : Env × Option Str :=
  if env.text "LIBAROMA_SOURCE" = [] then (env, some "LIBAROMA_SOURCE")
  else if env.text "LIBAROMA_PLATFORM" = [] then (env, some "LIBAROMA_PLATFORM")
  else
    let env := androidPlatform (genericFlags env)
    (env.assign "LIBAROMA_OUT" (outName arg env), none)

/-- What comes before the loop. -/
def startSettings (arg : Str) (env : Env) : Env :=
  (env.assign "LA_GENERIC_CFLAGS"
    "-Wl,--no-as-needed -D_LARGEFILE64_SOURCE -fPIC -DPIC").assign "CFG_NAME" (configName arg)

/-- The settings as `_setldr.cmd` leaves them, and the variable it reported as missing. -/
def loadSettings (cmd : Interpreter) (arg : Str) (lines : List Line) (env : Env) :
    Env × Option Str :=
  finishSettings arg (configLoop cmd (startSettings arg env) lines)

/-- The lines of a configuration file on the disk; without the file there are none to read. -/
def configLines (sh : Shell) (arg : Str) : List Line :=
  match sh.disk.fileAt (resolve sh.cwd (configName arg)) with
  | some (.text lines) => lines
  | _ => []

/-- `call _setldr.cmd ARG`; it has no `setlocal` of its own. -/
def setldr (cmd : Interpreter) (arg : Str) (sh : Shell) : Shell :=
  let r := loadSettings cmd arg (configLines sh arg) sh.env
  let sh' := match r.2 with
    | some name => sh.say (.notSet name)
    | none => sh
  { sh' with env := r.1 }.say (.loaded (resolve sh.cwd (configName arg)) r.1)

/-- **What `_setldr.cmd` changes**: the environment, and what is reported. -/
theorem setldr_eq (cmd : Interpreter) (arg : Str) (sh : Shell) :
    ∃ es, setldr cmd arg sh =
        { sh with
          env := (loadSettings cmd arg (configLines sh arg) sh.env).1
          log := sh.log ++ es } ∧
      built es = [] ∧
      loads es = [(resolve sh.cwd (configName arg),
        (loadSettings cmd arg (configLines sh arg) sh.env).1)] := by
  unfold setldr
  generalize loadSettings cmd arg (configLines sh arg) sh.env = r
  obtain ⟨env, missing⟩ := r
  cases missing with
  | none => exact ⟨[.loaded (resolve sh.cwd (configName arg)) env], rfl, rfl, rfl⟩
  | some name =>
    refine ⟨[.notSet name, .loaded (resolve sh.cwd (configName arg)) env], ?_, rfl, rfl⟩
    simp only [Shell.say, List.append_assoc, List.singleton_append]

/-! ### What a line comes to -/

/-- A field after `:trim`. -/
def cleaned (s : Str) : Str := if trimBlanks s = [] then ['"', '='] else dequote (trimBlanks s)

/-- The argument a line hands to `set`, if it gets that far. -/
def readLine (line : Str) : Option Str :=
  match fields (· == '=') line with
  | a :: b :: _ => if (cleaned a).head? = some '#' then none else some (cleaned a ++ '=' :: cleaned b)
  | _ => none

/-- A variable the loop uses for itself. -/
def scratch (v : Str) : Bool :=
  fold v == "key".toList || fold v == "val".toList || fold v == "tempvar".toList

/-- Two environments that agree away from the scratch variables. -/
def Agree (env env' : Env) : Prop := ∀ v, scratch v = false → env'.get v = env.get v

theorem Agree.refl (env : Env) : Agree env env := fun _ _ => rfl

theorem Agree.trans {e₁ e₂ e₃ : Env} (h₁ : Agree e₁ e₂) (h₂ : Agree e₂ e₃) : Agree e₁ e₃ :=
  fun v hv => (h₂ v hv).trans (h₁ v hv)

theorem agree_assign_key (env : Env) (x : Str) : Agree env (env.assign "key" x) := by
  intro v hv
  apply env.get_assign_ne
  intro h
  rw [scratch, h, show fold "key".toList = "key".toList by decide] at hv
  simp at hv

theorem agree_assign_val (env : Env) (x : Str) : Agree env (env.assign "val" x) := by
  intro v hv
  apply env.get_assign_ne
  intro h
  rw [scratch, h, show fold "val".toList = "val".toList by decide] at hv
  simp at hv

theorem key_ne_val : fold "key".toList ≠ fold "val".toList := by decide

/-- `:trim` replaces the value by its cleaned text. -/
theorem trim_eq (name : Str) (env : Env) :
    trim name env = env.assign name (cleaned (env.text name)) := by
  simp only [trim, trimhelper, Env.get_assign, if_true]
  congr 1
  rw [cleaned]
  by_cases h : trimBlanks (env.text name) = []
  · rw [if_pos h, if_pos h]; rfl
  · rw [if_neg h, if_neg h]; rfl

theorem expandFirst_eq_hash_iff (env : Env) (name x : Str) :
    expandFirst ((env.assign name x).get name) = ['#'] ↔ x.head? = some '#' := by
  rw [Env.get_assign, if_pos rfl]
  cases x with
  | nil => decide
  | cons c cs => simp [expandFirst]

/-- The body of the loop either stops short of `set` or hands it the cleaned fields. -/
theorem configBody_eq (a b : Str) (env : Env) :
    ∃ env', Agree env env' ∧ ∀ cmd, configBody cmd a b env =
      if (cleaned a).head? = some '#' ∨ b = [] then env'
      else runSet cmd (cleaned a ++ '=' :: cleaned b) env' := by
  set e₁ := ((env.assign "key" a).assign "val" b).assign "key" (cleaned a) with he₁
  have hkey : ((env.assign "key" a).assign "val" b).text "key" = a := by
    rw [Env.text_assign_ne _ _ key_ne_val, Env.text_assign_self]
  have hval : e₁.text "val" = b := by
    rw [he₁, Env.text_assign_ne _ _ key_ne_val.symm, Env.text_assign_self]
  have hag : Agree env e₁ :=
    ((agree_assign_key env a).trans (agree_assign_val _ b)).trans (agree_assign_key _ _)
  have hbody : ∀ cmd, configBody cmd a b env =
      if (cleaned a).head? = some '#' then e₁
      else if b = [] then e₁
      else runSet cmd (cleaned a ++ '=' :: cleaned b) (e₁.assign "val" (cleaned b)) := by
    intro cmd
    simp only [configBody, trim_eq, hkey, ← he₁, hval]
    rw [if_congr (expandFirst_eq_hash_iff _ _ _) rfl rfl]
    simp only [Env.text_assign_self]
    rw [Env.text_assign_ne _ _ key_ne_val, he₁, Env.text_assign_self]
  by_cases h : (cleaned a).head? = some '#' ∨ b = []
  · refine ⟨e₁, hag, fun cmd => ?_⟩
    rw [if_pos h, hbody]
    by_cases h' : (cleaned a).head? = some '#'
    · rw [if_pos h']
    · rw [if_neg h', if_pos (h.resolve_left h')]
  · refine ⟨e₁.assign "val" (cleaned b), hag.trans (agree_assign_val _ _), fun cmd => ?_⟩
    rw [if_neg h, hbody]
    rw [not_or] at h
    rw [if_neg h.1, if_neg h.2]

/-- **One line of the file.**  Away from the scratch variables it is the `set` command that
`readLine` finds in it, or nothing. -/
theorem configStep_eq (env : Env) (line : Str) :
    ∃ env', Agree env env' ∧ ∀ cmd, configStep cmd env line =
      match readLine line with
      | none => env'
      | some arg => runSet cmd arg env' := by
  unfold configStep readLine
  match h : fields (· == '=') line with
  | [] => exact ⟨env, Agree.refl env, fun _ => rfl⟩
  | [a] =>
    obtain ⟨env', hag, heq⟩ := configBody_eq a [] env
    exact ⟨env', hag, by simpa using heq⟩
  | a :: b :: rest =>
    have hb : b ≠ [] := by
      have hmem : b ∈ fields (· == '=') line := by rw [h]; simp
      exact ne_nil_of_mem_fields hmem
    obtain ⟨env', hag, heq⟩ := configBody_eq a b env
    refine ⟨env', hag, fun cmd => ?_⟩
    simp only [heq, hb, or_false]
    by_cases h' : (cleaned a).head? = some '#'
    · simp only [if_pos h']
    · simp only [if_neg h']

end Atools
